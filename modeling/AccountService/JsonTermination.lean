import AccountService.LibraryCursor
import AccountService.TokenJson

/-! `ParseJson` by position, as the source walks the text: the four scans with their reads, each loop
with a bound on its turns. The reader of `ModelJwt` works on what is left of the text; here it is
shown to be what the walk computes, which comes to its end on every text and never reads behind the
terminating `'\0'`. -/

namespace AccountService.JsonScan

open Scanning Cursor

/-- `json[i]`: behind the last character a `std::string` has `'\0'`. -/
def charAt : Scanner UInt8 UInt8 := Scanner.read 0

def skipWhitespaceTurn : Unit → Scanner UInt8 (Round Unit Unit) := fun _ => do
  let more ← Scanner.inside
  if more then do
    let c ← charAt
    if isSpace c then do
      Scanner.advance
      pure (.again ())
    else pure (.leave ())
  else pure (.leave ())

def skipWhitespace (turns : Nat) : Scanner UInt8 Unit := Scanner.loop skipWhitespaceTurn turns ()

/-- One turn of `while (i < json.size() && json[i] != '"')`. -/
def stringTurn (s : Bytes) : Scanner UInt8 (Round Bytes Bytes) := do
  let more ← Scanner.inside
  if more then do
    let c ← charAt
    if c = quote then pure (.leave s)
    else do
      let c ← charAt
      let next ← Scanner.insideNext
      if c = backslash ∧ next = true then do
        Scanner.advance
        let e ← charAt
        Scanner.advance
        pure (.again (s ++ [unescape e]))
      else do
        let c ← charAt
        Scanner.advance
        pure (.again (s ++ [c]))
  else pure (.leave s)

def parseString (turns : Nat) : Scanner UInt8 Bytes := do
  let c ← charAt
  if c ≠ quote then pure []
  else do
    Scanner.advance
    let s ← Scanner.loop stringTurn turns []
    let more ← Scanner.inside
    if more then do
      Scanner.advance
      pure s
    else pure s

/-- One turn of `while (i < json.size() && json[i] != ',' && json[i] != '}')`. -/
def rawTurn (val : Bytes) : Scanner UInt8 (Round Bytes Bytes) := do
  let more ← Scanner.inside
  if more then do
    let c ← charAt
    if c = comma then pure (.leave val)
    else do
      let c ← charAt
      if c = closeBrace then pure (.leave val)
      else do
        let c ← charAt
        if isSpace c then do
          Scanner.advance
          pure (.again val)
        else do
          let c ← charAt
          Scanner.advance
          pure (.again (val ++ [c]))
  else pure (.leave val)

def parseValue (turns : Nat) : Scanner UInt8 Bytes := do
  skipWhitespace turns
  let more ← Scanner.inside
  if more then do
    let c ← charAt
    if c = quote then parseString turns
    else Scanner.loop rawTurn turns []
  else pure []

/-- `if (i < json.size() && json[i] == ':') i++`. -/
def skipColon : Scanner UInt8 Unit := do
  let more ← Scanner.inside
  if more then do
    let c ← charAt
    if c = colon then Scanner.advance
    else pure ()
  else pure ()

/-- One turn of `while (i < json.size())`. -/
def memberTurn (turns : Nat) (result : Claims) : Scanner UInt8 (Round Claims Claims) := do
  let more ← Scanner.inside
  if more then do
    skipWhitespace turns
    let c ← charAt
    if c = closeBrace then pure (.leave result)
    else do
      let c ← charAt
      if c = comma then do
        Scanner.advance
        pure (.again result)
      else do
        let key ← parseString turns
        skipWhitespace turns
        skipColon
        let value ← parseValue turns
        pure (.again (if key = [] then result else result.set key value))
  else pure (.leave result)

/-- `ParseJson`, with a bound on the turns of each of its loops. -/
def parseJson (turns : Nat) : Scanner UInt8 Claims := do
  skipWhitespace turns
  let more ← Scanner.inside
  if more then do
    let c ← charAt
    if c = openBrace then do
      Scanner.advance
      Scanner.loop (memberTurn turns) turns []
    else pure []
  else pure []

variable {json : Bytes} {turns : Nat} {c : Cursor}

/-- What a scan leaves: a cursor in range, not behind the one it started from. -/
structure Forward (json : Bytes) (c c' : Cursor) : Prop where
  inRange : InRange json c'
  pos_le : c.pos ≤ c'.pos

theorem rest_cons (h : c.pos < json.length) (reads : List Nat) :
    rest json c = json.getD c.pos 0 :: rest json ⟨c.pos + 1, reads⟩ := rest_eq_cons h 0 reads

theorem skipWhitespace_ends (hc : InRange json c) (hturns : json.length < turns) :
    Ends json (skipWhitespace turns) c fun _ c' =>
      Forward json c c' ∧ rest json c' = AccountService.skipWhitespace (rest json c) := by
  refine Ends.loop (I := fun _ d => Forward json c d ∧
      AccountService.skipWhitespace (rest json d) = AccountService.skipWhitespace (rest json c))
    (fun _ d hd => hd.1.inRange.pos_le) (fun _ d hd => ?_) ⟨⟨hc, Nat.le_refl _⟩, rfl⟩ (by omega)
  obtain ⟨⟨hd, hpos⟩, hrest⟩ := hd
  refine Ends.inside (fun hlt => Ends.read ?_) fun hend => Ends.pure ⟨⟨hd, hpos⟩, ?_⟩
  · rw [rest_cons hlt d.reads] at hrest
    split
    · rename_i hspace
      refine Ends.advance (Ends.pure ⟨⟨⟨hd.read.advance hlt, Nat.le_succ_of_le hpos⟩, ?_⟩, Nat.lt_succ_self _⟩)
      rw [← hrest]
      exact (List.dropWhile_cons_of_pos hspace).symm
    · rename_i hspace
      refine Ends.pure ⟨⟨hd.read, hpos⟩, ?_⟩
      rw [← hrest, AccountService.skipWhitespace, List.dropWhile_cons_of_neg hspace]
      exact rest_cons hlt d.reads
  · rw [← hrest, rest_eq_nil hend]
    rfl

/-- The loop of `parse_string` up to the closing quote, which it leaves in front of the cursor. -/
theorem stringLoop_ends (hc : InRange json c) (hturns : json.length < turns) :
    Ends json (Scanner.loop stringTurn turns []) c fun s c' =>
      Forward json c c' ∧ (s, (rest json c').tail) = scanString (rest json c) := by
  refine Ends.loop (I := fun s d => Forward json c d ∧
      (s ++ (scanString (rest json d)).1, (scanString (rest json d)).2) = scanString (rest json c))
    (fun _ d hd => hd.1.inRange.pos_le) (fun s d hd => ?_) ⟨⟨hc, Nat.le_refl _⟩, rfl⟩ (by omega)
  obtain ⟨⟨hd, hpos⟩, hscan⟩ := hd
  refine Ends.inside (fun hlt => Ends.read ?_) fun hend => Ends.pure ⟨⟨hd, hpos⟩, ?_⟩
  · have hcons := rest_cons hlt d.reads
    rw [hcons] at hscan
    split
    · rename_i hquote
      refine Ends.pure ⟨⟨hd.read, hpos⟩, ?_⟩
      rw [← hscan, hquote, scanString_quote, List.append_nil]
      exact congrArg (fun r : Bytes => (s, r.tail)) hcons
    · rename_i hquote
      refine Ends.read (Ends.insideNext ?_)
      split
      · rename_i hescape
        have hnext : d.pos + 1 < json.length := of_decide_eq_true hescape.2
        rw [hescape.1, rest_cons hnext d.reads, scanString_escaped] at hscan
        refine Ends.advance (Ends.read (Ends.advance (Ends.pure
          ⟨⟨⟨(hd.read.read.advance hlt).read.advance hnext, ?_⟩, ?_⟩, ?_⟩)))
        · exact Nat.le_trans hpos (Nat.le_add_right _ 2)
        · rw [List.append_assoc]
          exact hscan
        · exact Nat.lt_add_of_pos_right Nat.two_pos
      · rename_i hplain
        refine Ends.read (Ends.advance (Ends.pure
          ⟨⟨⟨hd.read.read.read.advance hlt, Nat.le_succ_of_le hpos⟩, ?_⟩, Nat.lt_succ_self _⟩))
        rw [← hscan, List.append_assoc]
        by_cases hb : json.getD d.pos 0 = backslash
        · -- a backslash that ends the text stands for itself
          have hnext : ¬ d.pos + 1 < json.length := fun h => hplain ⟨hb, decide_eq_true h⟩
          have hnil : rest json ⟨d.pos + 1, d.reads⟩ = [] := rest_eq_nil hnext
          have hnil' : rest json ⟨d.pos + 1, d.pos :: d.pos :: d.pos :: d.reads⟩ = [] := rest_eq_nil hnext
          show (s ++ ([json.getD d.pos 0] ++ (scanString (rest json ⟨d.pos + 1, _⟩)).1),
            (scanString (rest json ⟨d.pos + 1, _⟩)).2) = _
          rw [hnil, hnil', hb]
          rfl
        · rw [scanString_plain hquote hb]
          rfl
  · rw [← hscan, rest_eq_nil hend]
    exact Prod.ext (List.append_nil s).symm rfl

theorem parseString_ends (hc : InRange json c) (hturns : json.length < turns) :
    Ends json (parseString turns) c fun s c' =>
      Forward json c c' ∧ (s, rest json c') = AccountService.parseString (rest json c) ∧
        (json.getD c.pos 0 = quote → c.pos < c'.pos) := by
  refine Ends.read ?_
  split
  · rename_i hquote
    refine Ends.pure ⟨⟨hc.read, Nat.le_refl _⟩, ?_, fun h => absurd h hquote⟩
    by_cases hlt : c.pos < json.length
    · rw [rest_cons hlt c.reads, parseString_other hquote]
      exact congrArg (Prod.mk []) (rest_cons hlt c.reads)
    · rw [rest_eq_nil hlt]
      exact congrArg (Prod.mk []) (rest_eq_nil hlt)
  · rename_i hquote
    have hquote : json.getD c.pos 0 = quote := not_not.1 hquote
    have hlt : c.pos < json.length := pos_lt_of_getD (by decide) hquote
    rw [rest_cons hlt c.reads, hquote, parseString_quote]
    refine Ends.advance (Ends.bind (stringLoop_ends (hc.read.advance hlt) hturns) fun s d hd => ?_)
    obtain ⟨⟨hd, hpos⟩, hscan⟩ := hd
    refine Ends.inside (fun hlt' => Ends.advance (Ends.pure
      ⟨⟨hd.advance hlt', ?_⟩, ?_, fun _ => ?_⟩)) fun hend => Ends.pure ⟨⟨hd, ?_⟩, ?_, fun _ => hpos⟩
    · exact Nat.le_of_lt (Nat.lt_trans hpos (Nat.lt_succ_self _))
    · rw [rest_cons hlt' d.reads] at hscan
      exact hscan
    · exact Nat.lt_succ_of_lt hpos
    · exact Nat.le_of_lt hpos
    · rw [rest_eq_nil hend] at hscan ⊢
      exact hscan

/-- The loop that reads anything but a string; it moves unless it starts on a delimiter or at the end. -/
theorem rawLoop_ends (hc : InRange json c) (hturns : json.length < turns) :
    Ends json (Scanner.loop rawTurn turns []) c fun val c' =>
      Forward json c c' ∧ (val, rest json c') = scanRaw (rest json c) ∧
        (c.pos < json.length → isDelimiter (json.getD c.pos 0) = false → c.pos < c'.pos) := by
  refine Ends.loop (I := fun val d => Forward json c d ∧
      (val ++ (scanRaw (rest json d)).1, (scanRaw (rest json d)).2) = scanRaw (rest json c))
    (fun _ d hd => hd.1.inRange.pos_le) (fun val d hd => ?_) ⟨⟨hc, Nat.le_refl _⟩, rfl⟩ (by omega)
  obtain ⟨⟨hd, hpos⟩, hscan⟩ := hd
  have hmoved : isDelimiter (json.getD d.pos 0) = true → isDelimiter (json.getD c.pos 0) = false →
      c.pos < d.pos := by
    intro hdelim hplain
    refine Nat.lt_of_le_of_ne hpos fun heq => ?_
    rw [heq, hdelim] at hplain
    exact absurd hplain (by decide)
  refine Ends.inside (fun hlt => Ends.read ?_) fun hend => Ends.pure ⟨⟨hd, hpos⟩, ?_, fun hlt _ => by omega⟩
  · have hcons := rest_cons hlt d.reads
    rw [hcons] at hscan
    split
    · rename_i hcomma
      have hdelim : isDelimiter (json.getD d.pos 0) = true := by rw [hcomma]; decide
      rw [scanRaw_delimiter hdelim, List.append_nil] at hscan
      exact Ends.pure ⟨⟨hd.read, hpos⟩, hcons ▸ hscan, fun _ => hmoved hdelim⟩
    · rename_i hcomma
      refine Ends.read ?_
      split
      · rename_i hclose
        have hdelim : isDelimiter (json.getD d.pos 0) = true := by rw [hclose]; decide
        rw [scanRaw_delimiter hdelim, List.append_nil] at hscan
        exact Ends.pure ⟨⟨hd.read.read, hpos⟩, hcons ▸ hscan, fun _ => hmoved hdelim⟩
      · rename_i hclose
        have hplain : isDelimiter (json.getD d.pos 0) = false := 
          Bool.or_eq_false_iff.2 ⟨decide_eq_false hcomma, decide_eq_false hclose⟩
        rw [scanRaw_plain hplain] at hscan
        refine Ends.read ?_
        split
        · rename_i hspace
          rw [if_pos hspace] at hscan
          exact Ends.advance (Ends.pure
            ⟨⟨⟨hd.read.read.read.advance hlt, Nat.le_succ_of_le hpos⟩, hscan⟩, Nat.lt_succ_self _⟩)
        · rename_i hspace
          rw [if_neg hspace] at hscan
          refine Ends.read (Ends.advance (Ends.pure
            ⟨⟨⟨hd.read.read.read.read.advance hlt, Nat.le_succ_of_le hpos⟩, ?_⟩, Nat.lt_succ_self _⟩))
          rw [List.append_assoc]
          exact hscan
  · rw [← hscan, rest_eq_nil hend]
    exact Prod.ext (List.append_nil val).symm rfl

/-- `parse_value` moves unless it starts on a delimiter or at the end. -/
theorem parseValue_ends (hc : InRange json c) (hturns : json.length < turns) :
    Ends json (parseValue turns) c fun val c' =>
      Forward json c c' ∧ (val, rest json c') = AccountService.parseValue (rest json c) ∧
        (c.pos < json.length → isDelimiter (json.getD c.pos 0) = false → c.pos < c'.pos) := by
  refine Ends.bind (skipWhitespace_ends hc hturns) fun _ d hd => ?_
  obtain ⟨⟨hd, hpos⟩, hskip⟩ := hd
  unfold AccountService.parseValue
  rw [← hskip]
  refine Ends.inside (fun hlt => Ends.read ?_) fun hend => Ends.pure ⟨⟨hd, hpos⟩, ?_, fun hlt _ => by omega⟩
  · rw [rest_cons hlt d.reads]
    dsimp only
    split
    · rename_i hquote
      refine Ends.mono (parseString_ends hd.read hturns) fun s e he => ?_
      obtain ⟨he, hstring, hmoved⟩ := he
      refine ⟨⟨he.inRange, hpos.trans he.pos_le⟩, ?_, fun _ _ => Nat.lt_of_le_of_lt hpos (hmoved hquote)⟩
      rw [hstring, rest_mk, rest_cons hlt d.reads, hquote, parseString_quote]
    · refine Ends.mono (rawLoop_ends hd.read hturns) fun val e he => ?_
      obtain ⟨he, hraw, hmoved⟩ := he
      refine ⟨⟨he.inRange, hpos.trans he.pos_le⟩, ?_, fun hlt' hplain => ?_⟩
      · rw [hraw, rest_mk, rest_cons hlt d.reads]
      · rcases Nat.lt_or_ge c.pos d.pos with h | h
        · exact Nat.lt_of_lt_of_le h he.pos_le
        · rw [Nat.le_antisymm hpos h] at hlt' hplain ⊢
          exact hmoved hlt' hplain
  · rw [rest_eq_nil hend]

theorem skipColon_ends (hc : InRange json c) :
    Ends json skipColon c fun _ c' =>
      Forward json c c' ∧ rest json c' = AccountService.skipColon (rest json c) := by
  refine Ends.inside (fun hlt => Ends.read ?_) fun hend => Ends.pure ⟨⟨hc, Nat.le_refl _⟩, ?_⟩
  · rw [rest_cons hlt c.reads]
    split
    · rename_i hcolon
      exact ⟨(), _, rfl, ⟨hc.read.advance hlt, Nat.le_succ _⟩, (if_pos hcolon).symm⟩
    · rename_i hcolon
      refine Ends.pure ⟨⟨hc.read, Nat.le_refl _⟩, ?_⟩
      rw [skipColon_other hcolon]
      exact rest_cons hlt c.reads
  · rw [rest_eq_nil hend]
    rfl

/-- What a turn comes to: it leaves with the result of the reader, or goes on behind where it started,
with the reader one turn further. -/
def MemberStep (json : Bytes) (result : Claims) (c : Cursor) : Round Claims Claims → Cursor → Prop
  | .again result', c' => InRange json c' ∧ c.pos < c'.pos ∧ ∀ fuel,
      parseMembers (fuel + 1) (rest json c) result = parseMembers fuel (rest json c') result'
  | .leave out, c' => InRange json c' ∧ ∀ fuel, parseMembers (fuel + 1) (rest json c) result = out

/-- **Progress.** Every turn comes to its end, and leaves the loop or moves forward. -/
theorem memberTurn_ends (hc : InRange json c) (hturns : json.length < turns) (result : Claims) :
    Ends json (memberTurn turns result) c (MemberStep json result c) := by
  refine Ends.inside (fun hlt => ?_) fun hend => Ends.pure ⟨hc, fun fuel => ?_⟩
  · have hne : rest json c ≠ [] := by
      rw [rest_cons hlt c.reads]
      exact List.cons_ne_nil _ _
    have hfuel : ∀ fuel, parseMembers (fuel + 1) (rest json c) result = _ := fun _ => if_neg hne
    refine Ends.bind (skipWhitespace_ends hc hturns) fun _ d hd => Ends.read ?_
    obtain ⟨⟨hd, hpos⟩, hskip⟩ := hd
    rw [← hskip] at hfuel
    split
    · rename_i hclose
      refine Ends.pure ⟨hd.read, fun fuel => ?_⟩
      rw [hfuel fuel, if_pos ((head?_rest_iff (by decide)).2 hclose)]
    · rename_i hclose
      refine Ends.read ?_
      split
      · rename_i hcomma
        have hcomma : json.getD d.pos 0 = comma := hcomma
        have hlt' : d.pos < json.length := pos_lt_of_getD (by decide) hcomma
        refine Ends.advance (Ends.pure
          ⟨hd.read.read.advance hlt', Nat.lt_succ_of_le hpos, fun fuel => ?_⟩)
        rw [hfuel fuel, if_neg (mt (head?_rest_iff (by decide)).1 hclose),
          if_pos ((head?_rest_iff (by decide)).2 hcomma), rest_cons hlt' d.reads]
        rfl
      · rename_i hcomma
        have hcomma : ¬ json.getD d.pos 0 = comma := hcomma
        refine Ends.bind (parseString_ends hd.read.read hturns) fun key e he => ?_
        obtain ⟨he, hkey, -⟩ := he
        refine Ends.bind (skipWhitespace_ends he.inRange hturns) fun _ f hf => ?_
        obtain ⟨hf, hskip'⟩ := hf
        refine Ends.bind (skipColon_ends hf.inRange) fun _ g hg => ?_
        obtain ⟨hg, hcolon⟩ := hg
        refine Ends.bind (parseValue_ends hg.inRange hturns) fun value h hh => Ends.pure ?_
        obtain ⟨hh, hvalue, hmoved⟩ := hh
        have hdg : d.pos ≤ g.pos := he.pos_le.trans (hf.pos_le.trans hg.pos_le)
        refine ⟨hh.inRange, ?_, fun fuel => ?_⟩
        · -- the value starts where the turn did only when nothing stood in front of it
          rcases Nat.lt_or_ge c.pos g.pos with hlt' | hge
          · exact Nat.lt_of_lt_of_le hlt' hh.pos_le
          · have hgc : g.pos = c.pos := Nat.le_antisymm hge (hpos.trans hdg)
            have hdc : d.pos = c.pos := Nat.le_antisymm (hdg.trans hge) hpos
            rw [← hgc]
            refine hmoved (hgc ▸ hlt) ?_
            rw [hgc, ← hdc]
            exact Bool.or_eq_false_iff.2 ⟨decide_eq_false hcomma, decide_eq_false hclose⟩
        · rw [hfuel fuel, if_neg (mt (head?_rest_iff (by decide)).1 hclose),
            if_neg (mt (head?_rest_iff (by decide)).1 hcomma), parseMember_eq, ← rest_mk json d, ← hkey,
            ← hskip', ← hcolon, ← hvalue]
  · rw [rest_eq_nil hend, parseMembers, if_pos rfl]

/-- The walk computes what the reader of `ModelJwt` does. -/
theorem parseJson_ends (hturns : json.length < turns) :
    Ends json (parseJson turns) ⟨0, []⟩ fun claims c' =>
      claims = AccountService.parseJson json ∧ InRange json c' := by
  refine Ends.bind (skipWhitespace_ends (inRange_start json (Nat.zero_le _)) hturns) fun _ d hd => ?_
  obtain ⟨⟨hd, -⟩, hskip⟩ := hd
  have hskip : rest json d = AccountService.skipWhitespace json := hskip
  unfold AccountService.parseJson
  rw [← hskip]
  refine Ends.inside (fun hlt => Ends.read ?_) fun hend => Ends.pure ⟨?_, hd⟩
  · rw [rest_cons hlt d.reads]
    dsimp only
    split
    · rename_i hopen
      refine Ends.advance (Ends.loop (I := fun result e => InRange json e ∧ ∃ fuel,
          (rest json e).length < fuel ∧ parseMembers fuel (rest json e) result =
            parseMembers ((rest json ⟨d.pos + 1, d.reads⟩).length + 1) (rest json ⟨d.pos + 1, d.reads⟩) [])
        (fun _ e he => he.1.pos_le) (fun result e he => ?_)
        ⟨hd.read.advance hlt, _, Nat.lt_succ_self _, rfl⟩ (by omega))
      obtain ⟨he, fuel, hfuel, hout⟩ := he
      refine Ends.mono (memberTurn_ends he hturns result) fun t e' ht => ?_
      obtain _ | fuel := fuel
      · exact absurd hfuel (Nat.not_lt_zero _)
      cases t with
      | again result' =>
          obtain ⟨he', hlt', hstep⟩ := ht
          refine ⟨⟨he', fuel, ?_, (hstep fuel).symm.trans hout⟩, hlt'⟩
          have hle := he'.pos_le
          rw [length_rest] at hfuel ⊢
          omega
      | leave out => exact ⟨(ht.2 fuel).symm.trans hout, ht.1⟩
    · exact Ends.pure ⟨rfl, hd.read⟩
  · rw [rest_eq_nil hend]

/-- A scan that starts at `i` comes to its end, at `i` or behind it, and reads nothing behind the end
of the text. -/
def Halts {α : Type} (json : Bytes) (scan : Scanner UInt8 α) (i : Nat) : Prop :=
  ∃ a c', scan json ⟨i, []⟩ = some (a, c') ∧ Forward json ⟨i, []⟩ c'

theorem halts_of_ends {α : Type} {scan : Scanner UInt8 α} {i : Nat} {Q : α → Cursor → Prop}
    (h : Ends json scan ⟨i, []⟩ Q) (hQ : ∀ a c', Q a c' → Forward json ⟨i, []⟩ c') : Halts json scan i := by
  obtain ⟨a, c', hrun, ha⟩ := h
  exact ⟨a, c', hrun, hQ a c' ha⟩

/-- **Termination of `ParseJson`.** With more turns for each loop than the text has bytes, the nested
scans come to their end from every position, every turn of the outer loop that starts inside the text
leaves or moves forward, and the whole function ends with the claims of the reader; every read is at
the end of the text at most. -/
theorem parseJson_terminates (json : Bytes) (turns : Nat) (hturns : json.length < turns) :
    (∀ i ≤ json.length, Halts json (skipWhitespace turns) i ∧ Halts json (parseString turns) i ∧
      Halts json (parseValue turns) i) ∧
    (∀ result, ∀ i < json.length, ∃ t c', memberTurn turns result json ⟨i, []⟩ = some (t, c') ∧
      InRange json c' ∧ ∀ result', t = .again result' → i < c'.pos) ∧
    ∃ c', parseJson turns json ⟨0, []⟩ = some (AccountService.parseJson json, c') ∧ InRange json c' := by
  refine ⟨fun i hi => ⟨?_, ?_, ?_⟩, fun result i hi => ?_, ?_⟩
  · exact halts_of_ends (skipWhitespace_ends (inRange_start json hi) hturns) fun _ _ h => h.1
  · exact halts_of_ends (parseString_ends (inRange_start json hi) hturns) fun _ _ h => h.1
  · exact halts_of_ends (parseValue_ends (inRange_start json hi) hturns) fun _ _ h => h.1
  · obtain ⟨t, c', hrun, hstep⟩ := memberTurn_ends (inRange_start json (Nat.le_of_lt hi)) hturns result
    refine ⟨t, c', hrun, ?_, ?_⟩
    · cases t with
      | again result' => exact hstep.1
      | leave out => exact hstep.1
    · rintro result' rfl
      exact hstep.2.1
  · obtain ⟨claims, c', hrun, rfl, hc'⟩ := parseJson_ends hturns
    exact ⟨c', hrun, hc'⟩

/-- The blank behind the brace takes the walk to the end of the text, where it reads on. -/
theorem parseJson_terminates_blank :
    ∃ c', parseJson 3 (ascii "\x7b ") ⟨0, []⟩ = some ([], c') ∧ InRange (ascii "\x7b ") c' :=
  (parseJson_terminates (ascii "\x7b ") 3 (by decide)).2.2

example : (parseJson 3 (ascii "\x7b ") ⟨0, []⟩).map (decide <| 2 ∈ ·.2.reads) = some true := by decide

end AccountService.JsonScan
