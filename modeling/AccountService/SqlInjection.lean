import AccountService.LibrarySqlLexer
import AccountService.ModelMySql

/-! `BuildSQL` against the lexer of the server: whatever strings are bound, the server sees the tokens of the
template with every placeholder replaced by the tokens of its parameter, a bound string being one quoted
text with that string as its value. -/

namespace AccountService

open SqlLexer Decimal
open MySQLConnection (placeholder apostrophe)

/-- What `mysql_real_escape_string` writes for a byte. -/
def escapedByte (b : UInt8) : Bytes :=
  if b = 0 then [92, 48]
  else if b = 10 then [92, 110]
  else if b = 13 then [92, 114]
  else if b = 26 then [92, 90]
  else if b = 39 || b = 34 || b = 92 then [92, b]
  else [b]

/-- The client library escapes byte by byte. -/
def MySQLClient.Escapes (client : MySQLClient) : Prop :=
  ∀ s, client.realEscapeString s = s.flatMap escapedByte

section Parameters

variable {D : Type} (doubleText : D → Bytes)

/-- The literal of a parameter. -/
def Param.text : Param D → Bytes
  | .null => ascii "NULL"
  | .string s => [apostrophe] ++ s.flatMap escapedByte ++ [apostrophe]
  | .bool b => if b then ascii "1" else ascii "0"
  | .int64 n => toString n.toInt
  | .uint64 n => toString n.toNat
  | .double d => doubleText d

def intTokens : Int → List Token
  | .ofNat n => [.word (natText n)]
  | .negSucc n => [.symbol minus, .word (natText (n + 1))]

/-- The tokens of a parameter. -/
def Param.tokens : Param D → List Token
  | .null => [.word (ascii "NULL")]
  | .string s => [.text .single s]
  | .bool b => [.word (if b then ascii "1" else ascii "0")]
  | .int64 n => intTokens n.toInt
  | .uint64 n => intTokens n.toNat
  | .double d => lex (doubleText d)

def Param.isDouble : Param D → Bool
  | .double _ => true
  | _ => false

end Parameters

/-- The template with its placeholders replaced one after the other. -/
def weave : Bytes → List Bytes → Bytes
  | [], _ => []
  | c :: sql, texts =>
      if c = placeholder then texts.headD [] ++ weave sql texts.tail else c :: weave sql texts

/-- Pieces with texts between them. -/
def alternate : List Bytes → List Bytes → Bytes
  | [], _ => []
  | piece :: _, [] => piece
  | piece :: pieces, text :: texts => piece ++ text ++ alternate pieces texts

/-- The tokens of a template with its placeholders replaced one after the other. -/
def fill : List Token → List (List Token) → List Token
  | [], _ => []
  | t :: tokens, parts =>
      if t = .symbol placeholder then parts.headD [] ++ fill tokens parts.tail else t :: fill tokens parts

/-- Every placeholder is outside quoted text and comments, after a blank or an opening bracket, and before a
blank, a comma, a closing bracket or the end. -/
def PlacedFrom (before : Option UInt8) (s : State) : Bytes → Prop
  | [] => True
  | c :: sql =>
      (c = placeholder → outside s = true ∧ (before = some 32 ∨ before = some 40) ∧ Delimited sql) ∧
        PlacedFrom (some c) (step s c).2 sql

instance decidablePlacedFrom : ∀ before s sql, Decidable (PlacedFrom before s sql)
  | _, _, [] => .isTrue trivial
  | _, _, _ :: sql => @instDecidableAnd _ _ _ (decidablePlacedFrom _ _ sql)

def Placed (sql : Bytes) : Prop := PlacedFrom none (.plain []) sql

theorem weave_eq_alternate (sql : Bytes) (texts : List Bytes) (h : sql.count placeholder = texts.length) :
    weave sql texts = alternate (sql.splitOn placeholder) texts := by
  induction sql generalizing texts with
  | nil =>
      rw [List.length_eq_zero_iff.mp h.symm]
      rfl
  | cons c sql ih =>
      by_cases hc : c = placeholder
      · subst hc
        rw [List.count_cons_self] at h
        cases texts with
        | nil => cases h
        | cons text rest =>
            have hrest := ih rest (Nat.succ.inj h)
            rw [weave, if_pos rfl, List.headD_cons, List.tail_cons, hrest]
            simp [List.splitOn, List.splitOnP_cons_eq_if_modifyHead, alternate]
      · rw [List.count_cons_of_ne hc] at h
        rw [weave, if_neg hc, ih texts h]
        obtain ⟨piece, pieces, hsplit⟩ := List.exists_cons_of_ne_nil (List.splitOn_ne_nil placeholder sql)
        have hcons : (c :: sql).splitOn placeholder = (c :: piece) :: pieces := by
          rw [List.splitOn, List.splitOnP_cons_eq_if_modifyHead, if_neg (by simpa using hc)]
          rw [List.splitOn] at hsplit
          rw [hsplit]
          rfl
        rw [hcons, hsplit]
        cases texts with
        | nil => rfl
        | cons text rest => simp [alternate]

theorem fill_append {first : List Token} (h : .symbol placeholder ∉ first) (second : List Token)
    (parts : List (List Token)) : fill (first ++ second) parts = first ++ fill second parts := by
  induction first with
  | nil => rfl
  | cons t rest ih =>
      have ht : t ≠ .symbol placeholder := fun ht => h (ht ▸ List.mem_cons_self)
      rw [List.cons_append, fill, if_neg ht, ih fun hmem => h (List.mem_cons_of_mem t hmem)]
      rfl

/-- A byte that is escaped stays inside the quotes and is read back. -/
theorem lex_escapedByte (value : Bytes) (b : UInt8) :
    emitted (.quoted .single value) (escapedByte b) = [] ∧
      after (.quoted .single value) (escapedByte b) = .quoted .single (value ++ [b]) := by
  by_cases hspecial : b = 0 ∨ b = 10 ∨ b = 13 ∨ b = 26 ∨ b = 39 ∨ b = 34 ∨ b = 92
  · rcases hspecial with rfl | rfl | rfl | rfl | rfl | rfl | rfl <;>
      simp [escapedByte, emitted, after, step, Quote.byte, SqlLexer.unescape]
  · simp only [not_or] at hspecial
    obtain ⟨h0, h10, h13, h26, h39, h34, h92⟩ := hspecial
    simp [escapedByte, emitted, after, step, Quote.byte, h0, h10, h13, h26, h39, h34, h92]

/-- An escaped string stays inside its quotes and is read back. -/
theorem lex_escaped (value s : Bytes) :
    emitted (.quoted .single value) (s.flatMap escapedByte) = [] ∧
      after (.quoted .single value) (s.flatMap escapedByte) = .quoted .single (value ++ s) := by
  induction s generalizing value with
  | nil => simp [emitted, after]
  | cons b s ih =>
      obtain ⟨hemitted, hafter⟩ := lex_escapedByte value b
      obtain ⟨ihemitted, ihafter⟩ := ih (value ++ [b])
      rw [List.flatMap_cons, emitted_append, after_append, hemitted, hafter, ihemitted, ihafter]
      simp

theorem lex_word (value word : Bytes) (h : ∀ b ∈ word, isWordByte b = true) :
    emitted (.plain value) word = [] ∧ after (.plain value) word = .plain (value ++ word) := by
  induction word generalizing value with
  | nil => simp [emitted, after]
  | cons b word ih =>
      obtain ⟨ihemitted, ihafter⟩ := ih (value ++ [b]) fun b' hb' => h b' (List.mem_cons_of_mem b hb')
      have hb := h b List.mem_cons_self
      constructor
      · simp [emitted, step, hb, ihemitted]
      · have hstep : after (.plain value) (b :: word) = after (.plain (value ++ [b])) word := by
          simp [after, step, hb]
        rw [hstep, ihafter]
        simp

theorem isWordByte_of_isDigit {b : UInt8} (h : isDigit b = true) : isWordByte b = true := by
  simp only [isDigit] at h
  simp [isWordByte, h]

/-- A word that is followed by a delimiter is one token. -/
theorem lexFrom_word {word rest : Bytes} (hword : ∀ b ∈ word, isWordByte b = true) (hne : word ≠ [])
    (hrest : Delimited rest) : lexFrom (.plain []) (word ++ rest) = .word word :: lexFrom (.plain []) rest := by
  obtain ⟨hemitted, hafter⟩ := lex_word [] word hword
  rw [lexFrom_append, hemitted, hafter, lexFrom_delimited (Or.inl ⟨_, rfl⟩) hrest]
  simp [flush, wordTokens, hne]

theorem lexFrom_int (n : Int) {rest : Bytes} (hrest : Delimited rest) :
    lexFrom (.plain []) (toString n ++ rest) = intTokens n ++ lexFrom (.plain []) rest := by
  have hdigits : ∀ m, ∀ b ∈ natText m, isWordByte b = true :=
    fun m b hb => isWordByte_of_isDigit (isDigit_of_mem_natText hb)
  cases n with
  | ofNat m => exact lexFrom_word (hdigits m) (natText_ne_nil m) hrest
  | negSucc m =>
      obtain ⟨d, ds, hds⟩ := List.exists_cons_of_ne_nil (natText_ne_nil (m + 1))
      have hd : isDigit d = true := isDigit_of_mem_natText (by rw [hds]; exact List.mem_cons_self)
      have henter : step .dash d = (.symbol 45 :: (step (.plain []) d).1, (step (.plain []) d).2) := by
        have h45 : d ≠ 45 := by
          rintro rfl
          exact absurd hd (by decide)
        have hword := isWordByte_of_isDigit hd
        have hquote : quote? d = none := by
          unfold quote?
          rw [if_neg, if_neg, if_neg] <;> rintro rfl <;> exact absurd hd (by decide)
        have h35 : d ≠ 35 := by
          rintro rfl
          exact absurd hd (by decide)
        have h47 : d ≠ 47 := by
          rintro rfl
          exact absurd hd (by decide)
        simp [step, enter, hword, hquote, h45, h35, h47]
      have hword := lexFrom_word (hdigits (m + 1)) (natText_ne_nil (m + 1)) hrest
      have htext : toString (Int.negSucc m) = 45 :: natText (m + 1) := rfl
      have hminus : step (.plain []) 45 = ([], .dash) := by decide
      rw [hds, List.cons_append, lexFrom] at hword
      rw [htext, hds, List.cons_append, lexFrom, hminus, List.cons_append, lexFrom, henter, intTokens, hds,
        List.nil_append, List.cons_append, hword]
      rfl

/-- **Literals.** A literal that is followed by a delimiter gives the tokens of its parameter. -/
theorem lexFrom_text {D : Type} (doubleText : D → Bytes) {param : Param D} (hparam : param.isDouble = false)
    {rest : Bytes} (hrest : Delimited rest) :
    lexFrom (.plain []) (param.text doubleText ++ rest) =
      param.tokens doubleText ++ lexFrom (.plain []) rest := by
  cases param with
  | null =>
      have hword : (∀ b ∈ ascii "NULL", isWordByte b = true) ∧ ascii "NULL" ≠ [] := by decide +kernel
      exact lexFrom_word hword.1 hword.2 hrest
  | int64 n => exact lexFrom_int _ hrest
  | uint64 n => exact lexFrom_int _ hrest
  | double d => cases hparam
  | bool b =>
      have hword : (∀ c ∈ (if b then ascii "1" else ascii "0"), isWordByte c = true) ∧
          (if b then ascii "1" else ascii "0") ≠ [] := by
        cases b <;> decide +kernel
      exact lexFrom_word hword.1 hword.2 hrest
  | string s =>
      obtain ⟨hemitted, hafter⟩ := lex_escaped [] s
      have hopen : step (.plain []) apostrophe = ([], .quoted .single []) := by decide
      have hclose : step (.quoted .single s) apostrophe = ([], .closing .single s) := by
        simp [step, Quote.byte, apostrophe]
      have htext : (Param.string s : Param D).text doubleText ++ rest =
          apostrophe :: (s.flatMap escapedByte ++ (apostrophe :: rest)) := by
        simp [Param.text]
      rw [htext, lexFrom, hopen, lexFrom_append, hemitted, hafter, List.nil_append, List.nil_append,
        List.nil_append, lexFrom, hclose, List.nil_append, lexFrom_delimited (Or.inr ⟨_, _, rfl⟩) hrest]
      rfl

section Build

variable {D : Type} {doubleText : D → Bytes} {conn : MySQLConnection} {client : MySQLClient}

theorem literal_eq (hconn : conn.mysql = some client) (hclient : client.Escapes) (param : Param D) :
    conn.literal doubleText param = .ok (param.text doubleText) := by
  cases param with
  | string s =>
      simp only [MySQLConnection.literal, MySQLConnection.escape, hconn, hclient s]
      rfl
  | null | int64 n | uint64 n | double d | bool b => rfl

theorem buildLoop_cons {c : UInt8} (hc : c ≠ placeholder) (result sql : Bytes) (params : List (Param D)) :
    conn.buildLoop doubleText result (c :: sql) params = conn.buildLoop doubleText (result ++ [c]) sql params := by
  cases params <;> simp [MySQLConnection.buildLoop, hc]

theorem buildLoop_ok (hconn : conn.mysql = some client) (hclient : client.Escapes) (result sql : Bytes)
    (params : List (Param D)) (h : sql.count placeholder = params.length) :
    conn.buildLoop doubleText result sql params =
      .ok (result ++ weave sql (params.map (Param.text doubleText))) := by
  induction sql generalizing result params with
  | nil =>
      rw [List.length_eq_zero_iff.mp h.symm]
      simp [MySQLConnection.buildLoop, weave]
  | cons c sql ih =>
      by_cases hc : c = placeholder
      · subst hc
        rw [List.count_cons_self] at h
        cases params with
        | nil => cases h
        | cons param rest =>
            have hrest := ih (result ++ param.text doubleText) rest (Nat.succ.inj h)
            rw [MySQLConnection.buildLoop, if_pos rfl]
            simp only [literal_eq hconn hclient param]
            refine Eq.trans hrest ?_
            simp [weave]
      · rw [List.count_cons_of_ne hc] at h
        rw [buildLoop_cons hc, ih (result ++ [c]) params h, weave, if_neg hc]
        simp

theorem buildLoop_error (hconn : conn.mysql = some client) (hclient : client.Escapes) (result sql : Bytes)
    (params : List (Param D)) (h : sql.count placeholder ≠ params.length) :
    ∃ message, conn.buildLoop doubleText result sql params = .error (.mySQLBuildException message) := by
  induction sql generalizing result params with
  | nil =>
      cases params with
      | nil => exact absurd rfl h
      | cons param rest => exact ⟨_, rfl⟩
  | cons c sql ih =>
      by_cases hc : c = placeholder
      · subst hc
        rw [List.count_cons_self] at h
        cases params with
        | nil => exact ⟨_, by rw [MySQLConnection.buildLoop, if_pos rfl]⟩
        | cons param rest =>
            obtain ⟨message, hrest⟩ := ih (result ++ param.text doubleText) rest fun heq => h (congrArg _ heq)
            refine ⟨message, ?_⟩
            rw [MySQLConnection.buildLoop, if_pos rfl]
            simp only [literal_eq hconn hclient param]
            exact hrest
      · rw [List.count_cons_of_ne hc] at h
        obtain ⟨message, hrest⟩ := ih (result ++ [c]) params h
        exact ⟨message, by rw [buildLoop_cons hc, hrest]⟩

/-- What follows a placeholder is not changed by the parameters after it. -/
theorem delimited_weave {sql : Bytes} (h : Delimited sql) (texts : List Bytes) : Delimited (weave sql texts) := by
  cases sql with
  | nil => exact h
  | cons c sql =>
      have hc : c ≠ placeholder := by
        rintro rfl
        exact absurd (h placeholder rfl) (by decide)
      rw [weave, if_neg hc]
      exact h

/-- The lexer goes through a template and through its instance in step. -/
theorem lexFrom_weave (params : List (Param D)) (hparams : ∀ p ∈ params, p.isDouble = false) (sql : Bytes)
    (before : Option UInt8) (s : State) (hbefore : ∀ b ∈ before, ∃ s', s = (step s' b).2)
    (hsql : PlacedFrom before s sql) (h : sql.count placeholder = params.length) :
    lexFrom s (weave sql (params.map (Param.text doubleText))) =
      fill (lexFrom s sql) (params.map (Param.tokens doubleText)) := by
  induction sql generalizing params before s with
  | nil =>
      have hflush := fill_append (@symbol_not_mem_flush placeholder (by decide) s) []
        (params.map (Param.tokens doubleText))
      rw [List.append_nil] at hflush
      rw [weave, lexFrom, hflush, fill, List.append_nil]
  | cons c sql ih =>
      obtain ⟨hplace, hrest⟩ := hsql
      have hnext : ∀ b ∈ some c, ∃ s', (step s c).2 = (step s' b).2 := by
        rintro b ⟨⟩
        exact ⟨s, rfl⟩
      by_cases hc : c = placeholder
      · subst hc
        rw [List.count_cons_self] at h
        cases params with
        | nil => cases h
        | cons param rest =>
            obtain ⟨houtside, hblank, hdelimited⟩ := hplace rfl
            have hplain : s = .plain [] := by
              rcases hblank with hb | hb
              · obtain ⟨s', rfl⟩ := hbefore _ hb
                exact plain_of_outside (Or.inl rfl) houtside
              · obtain ⟨s', rfl⟩ := hbefore _ hb
                exact plain_of_outside (Or.inr rfl) houtside
            subst hplain
            have hmark : step (.plain []) placeholder = ([.symbol placeholder], .plain []) := by decide
            rw [hmark] at hrest hnext
            have htail := ih rest (fun p hp => hparams p (List.mem_cons_of_mem param hp)) _ _ hnext hrest
              (Nat.succ.inj h)
            rw [weave, if_pos rfl, List.map_cons, List.headD_cons, List.tail_cons,
              lexFrom_text doubleText (hparams param List.mem_cons_self) (delimited_weave hdelimited _), htail,
              lexFrom, hmark, List.singleton_append, List.map_cons, fill, if_pos rfl]
            rfl
      · rw [List.count_cons_of_ne hc] at h
        have htail := ih params hparams _ _ hnext hrest h
        rw [weave, if_neg hc, lexFrom, lexFrom, htail,
          fill_append (@symbol_not_mem_step placeholder (by decide) s _ hc)]

/-- The parameters differ at most in a string value. -/
inductive SameButString : Param D → Param D → Prop
  | same (p : Param D) : SameButString p p
  | strings (s s' : Bytes) : SameButString (.string s) (.string s')

theorem isDouble_of_same {params params' : List (Param D)} (h : List.Forall₂ SameButString params params')
    (hparams : ∀ p ∈ params, p.isDouble = false) : ∀ p ∈ params', p.isDouble = false := by
  induction h with
  | nil => exact hparams
  | cons hpair _ ih =>
      rw [List.forall_mem_cons] at hparams ⊢
      refine ⟨?_, ih hparams.2⟩
      cases hpair with
      | same p => exact hparams.1
      | strings s s' => rfl

/-- The tokens are equal, or are quoted texts whose values are bound strings. -/
def SameButBound (params params' : List (Param D)) (t t' : Token) : Prop :=
  t = t' ∨ ∃ v v', .string v ∈ params ∧ .string v' ∈ params' ∧ t = .text .single v ∧ t' = .text .single v'

theorem SameButBound.refl (params params' : List (Param D)) (tokens : List Token) :
    List.Forall₂ (SameButBound params params') tokens tokens :=
  List.forall₂_same.mpr fun _ _ => Or.inl rfl

/-- Filling a template with parts that correspond gives tokens that correspond. -/
theorem forall₂_fill {R : Token → Token → Prop} (hR : ∀ t, R t t) (tokens : List Token)
    {parts parts' : List (List Token)} (h : List.Forall₂ (List.Forall₂ R) parts parts') :
    List.Forall₂ R (fill tokens parts) (fill tokens parts') := by
  induction tokens generalizing parts parts' with
  | nil => exact List.Forall₂.nil
  | cons t tokens ih =>
      by_cases ht : t = .symbol placeholder
      · rw [fill, fill, if_pos ht, if_pos ht]
        cases h with
        | nil => exact ih List.Forall₂.nil
        | cons hpart hrest => exact List.rel_append hpart (ih hrest)
      · rw [fill, fill, if_neg ht, if_neg ht]
        exact List.Forall₂.cons (hR t) (ih h)

theorem sameButBound_tokens {params params' : List (Param D)} (h : List.Forall₂ SameButString params params') :
    List.Forall₂ (List.Forall₂ (SameButBound params params')) (params.map (Param.tokens doubleText))
      (params'.map (Param.tokens doubleText)) := by
  -- the bound strings are looked up in the whole lists, the induction goes over their ends
  suffices hends : ∀ ends ends' : List (Param D), List.Forall₂ SameButString ends ends' →
      ends ⊆ params → ends' ⊆ params' →
        List.Forall₂ (List.Forall₂ (SameButBound params params')) (ends.map (Param.tokens doubleText))
          (ends'.map (Param.tokens doubleText)) from
    hends params params' h (List.Subset.refl _) (List.Subset.refl _)
  intro ends ends' hsame hsub hsub'
  induction hsame with
  | nil => exact List.Forall₂.nil
  | cons hparam _ ih =>
      refine List.Forall₂.cons ?_
        (ih (List.subset_of_cons_subset hsub) (List.subset_of_cons_subset hsub'))
      cases hparam with
      | same p => exact SameButBound.refl params params' _
      | strings s s' =>
          refine List.Forall₂.cons (Or.inr ⟨s, s', ?_, ?_, rfl, rfl⟩) List.Forall₂.nil
          · exact hsub List.mem_cons_self
          · exact hsub' List.mem_cons_self

/-- **Injection.** For every template with its placeholders in place, `BuildSQL` returns exactly when the
numbers agree; the result is the template with the literals put in, it has the tokens of the template with
those of the parameters put in, and other strings change nothing but the contents of the literals. -/
theorem buildSQL_safe (hconn : conn.mysql = some client) (hclient : client.Escapes) (sql : Bytes)
    (hsql : Placed sql) (params : List (Param D)) (hparams : ∀ p ∈ params, p.isDouble = false) :
    ((∃ result, conn.buildSQL doubleText sql params = .ok result) ↔ sql.count placeholder = params.length) ∧
    (sql.count placeholder ≠ params.length →
      ∃ message, conn.buildSQL doubleText sql params = .error (.mySQLBuildException message)) ∧
    ∀ result, conn.buildSQL doubleText sql params = .ok result →
      result = alternate (sql.splitOn placeholder) (params.map (Param.text doubleText)) ∧
      lex result = fill (lex sql) (params.map (Param.tokens doubleText)) ∧
      ∀ params', List.Forall₂ SameButString params params' →
        ∃ result', conn.buildSQL doubleText sql params' = .ok result' ∧
          List.Forall₂ (SameButBound params params') (lex result) (lex result') := by
  have hok : ∀ ps : List (Param D), sql.count placeholder = ps.length →
      conn.buildSQL doubleText sql ps = .ok (weave sql (ps.map (Param.text doubleText))) :=
    fun ps h => buildLoop_ok hconn hclient [] sql ps h
  have hfail : sql.count placeholder ≠ params.length →
      ∃ message, conn.buildSQL doubleText sql params = .error (.mySQLBuildException message) :=
    buildLoop_error hconn hclient [] sql params
  have hcount : ∀ result, conn.buildSQL doubleText sql params = .ok result →
      sql.count placeholder = params.length := by
    intro result hresult
    by_contra hne
    obtain ⟨message, herror⟩ := hfail hne
    rw [herror] at hresult
    cases hresult
  have hlex : ∀ ps : List (Param D), (∀ p ∈ ps, p.isDouble = false) → sql.count placeholder = ps.length →
      lex (weave sql (ps.map (Param.text doubleText))) = fill (lex sql) (ps.map (Param.tokens doubleText)) :=
    fun ps hps h => lexFrom_weave ps hps sql none (.plain []) (by simp) hsql h
  refine ⟨⟨fun ⟨result, hresult⟩ => hcount result hresult, fun h => ⟨_, hok params h⟩⟩, hfail, ?_⟩
  intro result hresult
  have hlength := hcount result hresult
  rw [hok params hlength] at hresult
  cases hresult
  refine ⟨weave_eq_alternate sql _ (by rw [List.length_map, hlength]), hlex params hparams hlength, ?_⟩
  intro params' hsame
  have hlength' : sql.count placeholder = params'.length := hlength.trans hsame.length_eq
  have hparams' := isDouble_of_same hsame hparams
  refine ⟨_, hok params' hlength', ?_⟩
  rw [hlex params hparams hlength, hlex params' hparams' hlength']
  exact forall₂_fill (fun t => Or.inl rfl) (lex sql) (sameButBound_tokens hsame)

end Build

/-- A quote and a comment sign in a bound string, for a statement with two parameters. -/
theorem buildSQL_safe_sample :
    MySQLConnection.buildSQL (D := Empty) ⟨some ⟨fun s => s.flatMap escapedByte⟩⟩ Empty.elim
        (ascii "SELECT * FROM users WHERE mobile = ? AND id = ?") [.string (ascii "'; DROP -- ?"), .int64 (-7)] =
      .ok (ascii "SELECT * FROM users WHERE mobile = '\\'; DROP -- ?' AND id = -7") ∧
    lex (ascii "SELECT * FROM users WHERE mobile = '\\'; DROP -- ?' AND id = -7") =
      fill (lex (ascii "SELECT * FROM users WHERE mobile = ? AND id = ?"))
        [[.text .single (ascii "'; DROP -- ?")], [.symbol minus, .word (ascii "7")]] := by
  have hbuilt : MySQLConnection.buildSQL (D := Empty) ⟨some ⟨fun s => s.flatMap escapedByte⟩⟩ Empty.elim
        (ascii "SELECT * FROM users WHERE mobile = ? AND id = ?") [.string (ascii "'; DROP -- ?"), .int64 (-7)] =
      .ok (ascii "SELECT * FROM users WHERE mobile = '\\'; DROP -- ?' AND id = -7") := by
    decide +kernel
  have hplaced : Placed (ascii "SELECT * FROM users WHERE mobile = ? AND id = ?") := by
    unfold Placed
    decide +kernel
  have hdouble : ∀ p ∈ ([.string (ascii "'; DROP -- ?"), .int64 (-7)] : List (Param Empty)), p.isDouble = false := by
    simp [Param.isDouble]
  have hescapes : MySQLClient.Escapes ⟨fun s => s.flatMap escapedByte⟩ := fun _ => rfl
  exact ⟨hbuilt, ((buildSQL_safe rfl hescapes _ hplaced _ hdouble).2.2 _ hbuilt).2.1⟩

end AccountService
