import AccountService.ModelRepository
import AccountService.ModelSqlText
import AccountService.SqlInjection

/-! The texts of the statements against the statements. A server that cuts a text into tokens, finds the template it
was built from and reads the literals gets back the statement, whatever the callers have put into it: no text stands
for two statements. -/

namespace AccountService

open Decimal Interaction SqlLexer
open MySQLConnection (placeholder)

/-- The value of a literal. -/
inductive SqlValue
  | text (value : Bytes)
  | number (value : Int)
  deriving DecidableEq

/-- The literal at the front of some tokens, and the tokens after it. -/
def readLiteral : List Token → Option (SqlValue × List Token)
  | .text .single value :: rest => some (.text value, rest)
  | .word digits :: rest => some (.number (natValue digits), rest)
  | .symbol sign :: .word digits :: rest => if sign = minus then some (.number (-natValue digits), rest) else none
  | _ => none

/-- The literals that stand where a template has its placeholders. -/
def matchTokens : List Token → List Token → Option (List SqlValue)
  | [], tokens => if tokens = [] then some [] else none
  | p :: pattern, tokens =>
      if p = .symbol placeholder then
        (readLiteral tokens).bind fun literal => (matchTokens pattern literal.2).map (literal.1 :: ·)
      else if tokens.head? = some p then matchTokens pattern tokens.tail
      else none

/-- Two templates differ before a placeholder of one of them faces something else. -/
def clash : List Token → List Token → Bool
  | [], [] => false
  | [], _ :: _ => true
  | _ :: _, [] => true
  | p :: ps, q :: qs =>
      if p = .symbol placeholder then q = .symbol placeholder && clash ps qs
      else if q = .symbol placeholder then false
      else p ≠ q || clash ps qs

/-- The value that a parameter is read as. -/
def Param.value? {D : Type} : Param D → Option SqlValue
  | .null | .double _ => none
  | .string s => some (.text s)
  | .bool b => some (.number (if b then 1 else 0))
  | .int64 n => some (.number n.toInt)
  | .uint64 n => some (.number n.toNat)

section Literals

variable {D : Type} (doubleText : D → Bytes)

theorem readLiteral_tokens {p : Param D} {v : SqlValue} (h : p.value? = some v) (rest : List Token) :
    readLiteral (p.tokens doubleText ++ rest) = some (v, rest) := by
  have hint : ∀ n : Int, readLiteral (intTokens n ++ rest) = some (.number n, rest) := by
    intro n
    cases n with
    | ofNat n => simp [intTokens, readLiteral, natValue_natText]
    | negSucc n => simp [intTokens, readLiteral, natValue_natText, Int.negSucc_eq]
  cases p with
  | null => cases h
  | double d => cases h
  | string s =>
      cases h
      rfl
  | bool b =>
      cases h
      cases b <;> rfl
  | int64 n =>
      cases h
      exact hint n.toInt
  | uint64 n =>
      cases h
      exact hint (.ofNat n.toNat)

theorem matchTokens_fill {params : List (Param D)} {values : List SqlValue}
    (h : params.map Param.value? = values.map some) (pattern : List Token)
    (hcount : pattern.count (.symbol placeholder) = params.length) :
    matchTokens pattern (fill pattern (params.map (Param.tokens doubleText))) = some values := by
  induction pattern generalizing params values with
  | nil =>
      obtain rfl := List.length_eq_zero_iff.mp hcount.symm
      obtain rfl := List.map_eq_nil_iff.mp h.symm
      rfl
  | cons p pattern ih =>
      by_cases hp : p = .symbol placeholder
      · subst hp
        rw [List.count_cons_self] at hcount
        cases params with
        | nil => cases hcount
        | cons param params =>
            cases values with
            | nil => cases h
            | cons v values =>
                simp only [List.map_cons, List.cons.injEq] at h
                rw [fill, if_pos rfl, matchTokens, if_pos rfl, List.map_cons, List.headD_cons, List.tail_cons,
                  readLiteral_tokens doubleText h.1, Option.bind_some, ih h.2 (Nat.succ.inj hcount)]
                rfl
      · rw [List.count_cons_of_ne hp] at hcount
        rw [fill, if_neg hp, matchTokens, if_neg hp, if_pos List.head?_cons, List.tail_cons]
        exact ih h hcount

theorem tokens_ne_nil {p : Param D} {v : SqlValue} (h : p.value? = some v) (rest : List Token) :
    p.tokens doubleText ++ rest ≠ [] := by
  intro hnil
  have hread := readLiteral_tokens doubleText h rest
  rw [hnil] at hread
  cases hread

theorem matchTokens_clash {params : List (Param D)} {values : List SqlValue}
    (h : params.map Param.value? = values.map some) {other pattern : List Token} (hclash : clash other pattern = true)
    (hcount : pattern.count (.symbol placeholder) = params.length) :
    matchTokens other (fill pattern (params.map (Param.tokens doubleText))) = none := by
  induction pattern generalizing params values other with
  | nil =>
      cases other with
      | nil => cases hclash
      | cons q other =>
          rw [fill, matchTokens]
          split
          · rfl
          · rw [if_neg (by simp)]
  | cons p pattern ih =>
      by_cases hp : p = .symbol placeholder
      · subst hp
        rw [List.count_cons_self] at hcount
        cases params with
        | nil => cases hcount
        | cons param params =>
            cases values with
            | nil => cases h
            | cons v values =>
                simp only [List.map_cons, List.cons.injEq] at h
                rw [fill, if_pos rfl, List.map_cons, List.headD_cons, List.tail_cons]
                cases other with
                | nil =>
                    obtain ⟨t, tokens, htokens⟩ := List.exists_cons_of_ne_nil (tokens_ne_nil doubleText h.1 _)
                    rw [htokens, matchTokens, if_neg (List.cons_ne_nil t tokens)]
                | cons q other =>
                    rw [clash] at hclash
                    by_cases hq : q = .symbol placeholder
                    · rw [if_pos hq] at hclash
                      rw [matchTokens, if_pos hq, readLiteral_tokens doubleText h.1, Option.bind_some,
                        ih h.2 (by simpa using hclash) (Nat.succ.inj hcount)]
                      rfl
                    · rw [if_neg hq, if_pos rfl] at hclash
                      cases hclash
      · rw [List.count_cons_of_ne hp] at hcount
        rw [fill, if_neg hp]
        cases other with
        | nil => rw [matchTokens, if_neg (List.cons_ne_nil _ _)]
        | cons q other =>
            rw [clash] at hclash
            by_cases hq : q = .symbol placeholder
            · rw [if_pos hq] at hclash
              simp [hp] at hclash
            · rw [if_neg hq, if_neg hp] at hclash
              rw [matchTokens, if_neg hq, List.head?_cons, List.tail_cons]
              split
              · rename_i hpq
                refine ih h ?_ hcount
                simpa [Option.some.inj hpq] using hclash
              · rfl

end Literals

namespace SqlShape

/-- All of them. -/
def all : List SqlShape :=
  [selectUserById, selectUserByUuid, selectUserByMobile, existsMobile, insertUser, updateUser, insertSession,
    selectValidSession, countActiveSessions, deleteSessionByHash, deleteSessionsByUser, deleteExpiredSessions] ++
    [countUsers false false, countUsers false true, countUsers true false, countUsers true true] ++
      [selectUsers false false, selectUsers false true, selectUsers true false, selectUsers true true]

theorem mem_all (shape : SqlShape) : shape ∈ all := by
  cases shape with
  | countUsers mobileLike disabled => cases mobileLike <;> cases disabled <;> decide
  | selectUsers mobileLike disabled => cases mobileLike <;> cases disabled <;> decide
  | _ => decide

/-- The number of its placeholders. -/
def arity : SqlShape → Nat
  | selectUserById | selectUserByUuid | selectUserByMobile | existsMobile => 1
  | countUsers mobileLike disabled => mobileLike.toNat + disabled.toNat
  | selectUsers mobileLike disabled => mobileLike.toNat + disabled.toNat + 2
  | insertUser | updateUser => 5
  | insertSession => 3
  | selectValidSession | countActiveSessions | deleteSessionByHash | deleteSessionsByUser => 1
  | deleteExpiredSessions => 0

/-- The placeholders are in place, and no template is mistaken for another one. -/
def Distinguished (shape : SqlShape) : Prop :=
  PlacedFrom none (.plain []) shape.template ∧ (lex shape.template).count (.symbol placeholder) = shape.arity ∧
    shape.template.count placeholder = shape.arity ∧
      ∀ other ∈ all, other = shape ∨ clash (lex other.template) (lex shape.template) = true

instance (shape : SqlShape) : Decidable shape.Distinguished := inferInstanceAs (Decidable (_ ∧ _))

theorem distinguished_all : ∀ shape ∈ all, shape.Distinguished := by
  decide +kernel

theorem distinguished (shape : SqlShape) : shape.Distinguished := distinguished_all shape (mem_all shape)

theorem clash_template {shape other : SqlShape} (h : other ≠ shape) :
    clash (lex other.template) (lex shape.template) = true :=
  (shape.distinguished.2.2.2 other (mem_all other)).resolve_left h

end SqlShape

/-- An id that is written in digits. -/
def readNumber (text : Bytes) : Option Int := readInt isSpace text

/-- What stands between two `%`. -/
def readLike : Bytes → Option Bytes
  | [] => none
  | c :: rest => if c = 37 ∧ rest.getLast? = some 37 then some rest.dropLast else none

def readRole : Int → Option UserRole
  | 0 => some .user
  | 1 => some .admin
  | 2 => some .superAdmin
  | _ => none

/-- The conditions of a listing, and the values after them. -/
def readFilter (mobileLike disabled : Bool) (values : List SqlValue) : Option (UserFilter × List SqlValue) :=
  match mobileLike, disabled, values with
  | true, true, .text text :: .number n :: rest => (readLike text).map fun mobile => (⟨some mobile, some (n ≠ 0)⟩, rest)
  | true, false, .text text :: rest => (readLike text).map fun mobile => (⟨some mobile, none⟩, rest)
  | false, true, .number n :: rest => some (⟨none, some (n ≠ 0)⟩, rest)
  | false, false, rest => some (⟨none, none⟩, rest)
  | _, _, _ => none

/-- The statement of a template with these values. -/
def SqlShape.build (readDatetime : Bytes → Option Nat) (shape : SqlShape) (values : List SqlValue) : Option SqlStmt :=
  match shape, values with
  | .selectUserById, [.text id] => (readNumber id).map .selectUserById
  | .selectUserByUuid, [.text uuid] => some (.selectUserByUuid uuid)
  | .selectUserByMobile, [.text mobile] => some (.selectUserByMobile mobile)
  | .existsMobile, [.text mobile] => some (.existsMobile mobile)
  | .countUsers mobileLike disabled, values =>
      (readFilter mobileLike disabled values).bind fun r => if r.2 = [] then some (.countUsers r.1) else none
  | .selectUsers mobileLike disabled, values =>
      (readFilter mobileLike disabled values).bind fun r =>
        match r.2 with
        | [.number offset, .number limit] => some (.selectUsers r.1 offset limit)
        | _ => none
  | .insertUser, [.text uuid, .text mobile, .text displayName, .text passwordHash, .number role] =>
      (readRole role).map (.insertUser uuid mobile displayName passwordHash)
  | .updateUser, [.text displayName, .text passwordHash, .number disabled, .number role, .text uuid] =>
      (readRole role).map fun role => .updateUser ⟨displayName, passwordHash, disabled ≠ 0, role, uuid⟩
  | .insertSession, [.text userId, .text tokenHash, .text expiresAt] =>
      (readNumber userId).bind fun userId => (readDatetime expiresAt).map (.insertSession userId tokenHash)
  | .selectValidSession, [.text tokenHash] => some (.selectValidSession tokenHash)
  | .countActiveSessions, [.text userId] => (readNumber userId).map .countActiveSessions
  | .deleteSessionByHash, [.text tokenHash] => some (.deleteSessionByHash tokenHash)
  | .deleteSessionsByUser, [.text userId] => (readNumber userId).map .deleteSessionsByUser
  | .deleteExpiredSessions, [] => some .deleteExpiredSessions
  | _, _ => none

/-- The statement that a text stands for. -/
def SqlStmt.read (readDatetime : Bytes → Option Nat) (text : Bytes) : Option SqlStmt :=
  SqlShape.all.findSome? fun shape =>
    (matchTokens (lex shape.template) (lex text)).bind (shape.build readDatetime)

/-- The numbers of the statement are those of the types that carry them, and its instant can be written. -/
def SqlStmt.Sendable (formatDatetime : Nat → Bytes) (readDatetime : Bytes → Option Nat) : SqlStmt → Prop
  | .selectUsers _ offset limit => IsInt64 offset ∧ IsInt64 limit
  | .insertSession _ _ expiresAt => readDatetime (formatDatetime expiresAt) = some expiresAt
  | _ => True

section RoundTrip

variable {D : Type} {formatDatetime : Nat → Bytes} {readDatetime : Bytes → Option Nat}

theorem readNumber_toString (n : Int) : readNumber (toString n) = some n :=
  readInt_intText isSpace isSpace_eq_false_of_numeric n

theorem readLike_between (text : Bytes) : readLike (ascii "%" ++ text ++ ascii "%") = some text := by
  have hpercent : ascii "%" = [37] := by decide
  simp [hpercent, readLike]

theorem readRole_toInt (role : UserRole) : readRole (userRoleToInt role).toInt = some role := by
  cases role <;> decide

theorem number_bool (b : Bool) : decide ((if b then (1 : Int) else 0) ≠ 0) = b := by
  cases b <;> decide

theorem length_bindings (s : SqlStmt) : (s.bindings formatDatetime : List (Param D)).length = s.shape.arity := by
  cases s with
  | countUsers filter =>
      obtain ⟨mobileLike, disabled⟩ := filter
      cases mobileLike <;> cases disabled <;> rfl
  | selectUsers filter offset limit =>
      obtain ⟨mobileLike, disabled⟩ := filter
      cases mobileLike <;> cases disabled <;> rfl
  | _ => rfl

/-- The values of a filter are read back. -/
theorem exists_filterValues (filter : UserFilter) :
    ∃ values, (filter.bindings : List (Param D)).map Param.value? = values.map some ∧
      ∀ rest, readFilter filter.mobileLike.isSome filter.disabled.isSome (values ++ rest) = some (filter, rest) := by
  obtain ⟨mobileLike, disabled⟩ := filter
  cases mobileLike with
  | none =>
      cases disabled with
      | none => exact ⟨[], rfl, fun rest => rfl⟩
      | some disabled => exact ⟨[.number (if disabled then 1 else 0)], rfl, fun rest => by
          simp [readFilter]⟩
  | some text =>
      cases disabled with
      | none => exact ⟨[.text (ascii "%" ++ text ++ ascii "%")], rfl, fun rest => by
          simp only [readFilter, Option.isSome_some, Option.isSome_none, List.cons_append, List.nil_append,
            readLike_between, Option.map_some]⟩
      | some disabled =>
          refine ⟨[.text (ascii "%" ++ text ++ ascii "%"), .number (if disabled then 1 else 0)], rfl, fun rest => ?_⟩
          simp only [readFilter, Option.isSome_some, List.cons_append, List.nil_append, readLike_between,
            Option.map_some, number_bool]

theorem toInt_ofInt {n : Int} (h : IsInt64 n) : (Int64.ofInt n).toInt = n := by
  unfold IsInt64 at h
  exact Int64.toInt_ofInt_of_le (by omega) (by omega)

/-- The values that a statement binds are those of the statement. -/
theorem exists_values (formatDatetime : Nat → Bytes) (readDatetime : Bytes → Option Nat) (s : SqlStmt) :
    ∃ values, (s.bindings formatDatetime : List (Param D)).map Param.value? = values.map some ∧
      (s.Sendable formatDatetime readDatetime → s.shape.build readDatetime values = some s) := by
  have hid : ∀ (id : Int) (f : Int → SqlStmt), (readNumber (toString id)).map f = some (f id) := by
    intro id f
    rw [readNumber_toString, Option.map_some]
  cases s with
  | selectUserById id => exact ⟨[_], rfl, fun _ => hid id .selectUserById⟩
  | selectUserByUuid uuid => exact ⟨[_], rfl, fun _ => rfl⟩
  | selectUserByMobile mobile => exact ⟨[_], rfl, fun _ => rfl⟩
  | existsMobile mobile => exact ⟨[_], rfl, fun _ => rfl⟩
  | countUsers filter =>
      obtain ⟨values, hvalues, hread⟩ := exists_filterValues (D := D) filter
      refine ⟨values, hvalues, fun _ => ?_⟩
      have hread := hread []
      rw [List.append_nil] at hread
      simp only [SqlStmt.shape, SqlShape.build, hread, Option.bind_some, if_true]
  | selectUsers filter offset limit =>
      obtain ⟨values, hvalues, hread⟩ := exists_filterValues (D := D) filter
      refine ⟨values ++ [.number (Int64.ofInt offset).toInt, .number (Int64.ofInt limit).toInt], ?_,
        fun ⟨hoffset, hlimit⟩ => ?_⟩
      · rw [SqlStmt.bindings, List.map_append, List.map_append, hvalues]
        rfl
      · simp only [SqlStmt.shape, SqlShape.build, hread, Option.bind_some, toInt_ofInt hoffset, toInt_ofInt hlimit]
  | insertUser uuid mobile displayName passwordHash role =>
      refine ⟨[_, _, _, _, .number (userRoleToInt role).toInt], rfl, fun _ => ?_⟩
      simp only [SqlStmt.shape, SqlShape.build, readRole_toInt, Option.map_some]
  | updateUser u =>
      refine ⟨[_, _, .number (if u.disabled then 1 else 0), .number (userRoleToInt u.role).toInt, _], rfl, fun _ => ?_⟩
      simp only [SqlStmt.shape, SqlShape.build, readRole_toInt, Option.map_some, number_bool]
  | insertSession userId tokenHash expiresAt =>
      refine ⟨[_, _, _], rfl, fun hread => ?_⟩
      have hread : readDatetime (formatDatetime expiresAt) = some expiresAt := hread
      simp only [SqlStmt.shape, SqlShape.build, readNumber_toString, Option.bind_some, hread, Option.map_some]
  | selectValidSession tokenHash => exact ⟨[_], rfl, fun _ => rfl⟩
  | countActiveSessions userId => exact ⟨[_], rfl, fun _ => hid userId .countActiveSessions⟩
  | deleteSessionByHash tokenHash => exact ⟨[_], rfl, fun _ => rfl⟩
  | deleteSessionsByUser userId => exact ⟨[_], rfl, fun _ => hid userId .deleteSessionsByUser⟩
  | deleteExpiredSessions => exact ⟨[], rfl, fun _ => rfl⟩

theorem isDouble_bindings (s : SqlStmt) : ∀ p ∈ (s.bindings formatDatetime : List (Param D)), p.isDouble = false := by
  intro p hp
  obtain ⟨values, hvalues, -⟩ := exists_values (D := D) formatDatetime (fun _ => none) s
  have hmem := List.mem_map_of_mem (f := Param.value?) hp
  rw [hvalues] at hmem
  obtain ⟨v, -, hv⟩ := List.mem_map.mp hmem
  cases p with
  | double d => cases hv
  | _ => rfl

theorem findSome_unique {α β : Type} {f : α → Option β} {l : List α} {a : α} {b : β} (ha : a ∈ l) (hb : f a = some b)
    (hother : ∀ x ∈ l, x ≠ a → f x = none) : l.findSome? f = some b := by
  induction l with
  | nil => cases ha
  | cons x l ih =>
      rw [List.findSome?_cons]
      by_cases hx : x = a
      · rw [hx, hb]
      · rw [hother x List.mem_cons_self hx]
        exact ih ((List.mem_cons.mp ha).resolve_left (Ne.symm hx)) fun y hy => hother y (List.mem_cons_of_mem _ hy)

variable {conn : MySQLConnection} {client : MySQLClient} {doubleText : D → Bytes}

/-- **Round trip.** Whatever a statement carries, its text is built, and read back it is this statement again. -/
theorem statement_round_trip (hconn : conn.mysql = some client) (hclient : client.Escapes) (s : SqlStmt)
    (hs : s.Sendable formatDatetime readDatetime) :
    ∃ text, conn.buildSQL doubleText s.shape.template (s.bindings formatDatetime) = .ok text ∧
      SqlStmt.read readDatetime text = some s := by
  obtain ⟨hplaced, hcount, hplaceholders, -⟩ := s.shape.distinguished
  have hlength : (s.bindings formatDatetime : List (Param D)).length = s.shape.arity := length_bindings s
  rw [← hlength] at hcount hplaceholders
  refine ⟨_, buildLoop_ok hconn hclient [] _ _ hplaceholders, ?_⟩
  have hlex : lexFrom (.plain []) (weave s.shape.template ((s.bindings formatDatetime).map (Param.text doubleText))) =
      fill (lex s.shape.template) ((s.bindings formatDatetime).map (Param.tokens doubleText)) :=
    lexFrom_weave _ (isDouble_bindings s) s.shape.template none (.plain []) (by simp) hplaced hplaceholders
  obtain ⟨values, hvalues, hbuild⟩ := exists_values (D := D) formatDatetime readDatetime s
  rw [SqlStmt.read, List.nil_append, lex, hlex]
  refine findSome_unique s.shape.mem_all ?_ fun other _ hother => ?_
  · rw [matchTokens_fill doubleText hvalues _ hcount, Option.bind_some]
    exact hbuild hs
  · rw [matchTokens_clash doubleText hvalues (SqlShape.clash_template hother) hcount]
    rfl

end RoundTrip

/-- A session that is about to be saved, with a hash that is none. -/
theorem statement_round_trip_sample :
    let epoch := ascii "1970-01-01 00:00:00"
    let s := SqlStmt.insertSession 7 (ascii "' OR 1 = 1 -- ?") 0
    ∃ text, MySQLConnection.buildSQL (D := Empty) ⟨some ⟨fun s => s.flatMap escapedByte⟩⟩ Empty.elim s.shape.template
        (s.bindings fun _ => epoch) = .ok text ∧
      SqlStmt.read (fun t => if t = epoch then some 0 else none) text = some s :=
  statement_round_trip rfl (fun _ => rfl) (.insertSession 7 (ascii "' OR 1 = 1 -- ?") 0) (if_pos rfl)

end AccountService
