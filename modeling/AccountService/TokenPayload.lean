import AccountService.TokenJson

/-! The JSON payload as a map: the reader gives back the very map the writer was given, as long as the
keys and values hold none of the bytes the reader changes. -/

namespace AccountService

open Decimal OrderedMap

/-- `std::map<std::string, std::string>`: the keys are in the order of `std::string`, each once. -/
def Claims.IsMap (claims : Claims) : Prop := claims.Pairwise fun m n => bytesLt m.1 n.1 = true

/-- A member that comes back. The writer escapes backspace (8) and form feed (12) by letters the
reader does not know; a value written bare ends at a delimiter and loses its blanks. -/
structure Storable (key value : Bytes) : Prop where
  nonempty : key ≠ []
  key_plain : ∀ c ∈ key, c ≠ 8 ∧ c ≠ 12
  quoted : isNumber value = false → ∀ c ∈ value, c ≠ 8 ∧ c ≠ 12
  bare : isNumber value = true → ∀ c ∈ value, c ≠ comma ∧ c ≠ closeBrace ∧ isSpace c = false

theorem bytesLt_irrefl : ∀ s : Bytes, bytesLt s s = false
  | [] => rfl
  | c :: rest => by
      rw [bytesLt, if_pos rfl]
      exact bytesLt_irrefl rest

theorem bytesLt_asymm : ∀ s t : Bytes, bytesLt s t = true → bytesLt t s = false
  | _, [], h => absurd h (by rw [bytesLt]; exact Bool.false_ne_true)
  | [], _ :: _, _ => rfl
  | a :: as, b :: bs, h => by
      rw [bytesLt] at h ⊢
      by_cases hab : a = b
      · rw [if_pos hab] at h
        rw [if_pos hab.symm]
        exact bytesLt_asymm as bs h
      · rw [if_neg hab, decide_eq_true_eq] at h
        rw [if_neg (Ne.symm hab), decide_eq_false_iff_not]
        exact UInt8.lt_asymm h

theorem map_smudge_of_plain {s : Bytes} (h : ∀ c ∈ s, c ≠ 8 ∧ c ≠ 12) : s.map smudge = s :=
  (List.map_congr_left fun c hc => (smudge_eq_self_iff c).mpr (h c hc)).trans (List.map_id s)

theorem Storable.plainKey {key value : Bytes} (h : Storable key value) : plainKey key = true := by
  rw [AccountService.plainKey, Bool.and_eq_true, Bool.not_eq_true', List.isEmpty_eq_false_iff,
    decide_eq_true_eq]
  exact ⟨h.nonempty, map_smudge_of_plain h.key_plain⟩

theorem Storable.survives {key value : Bytes} (h : Storable key value) : survives value = true := by
  rw [AccountService.survives]
  cases hnum : isNumber value with
  | true =>
      rw [if_pos rfl, List.all_eq_true]
      intro c hc
      obtain ⟨hcomma, hbrace, hspace⟩ := h.bare hnum c hc
      simp [isDelimiter, hcomma, hbrace, hspace]
  | false =>
      rw [if_neg Bool.false_ne_true, List.all_eq_true]
      intro c hc
      obtain ⟨hb, hf⟩ := h.quoted hnum c hc
      simp [hb, hf]

/-- The assignments the reader makes are those of the map itself. -/
theorem assignAll_eq_foldl (claims front : Claims) (h : ∀ m ∈ claims, reread m.2 = m.2) :
    assignAll claims front = claims.foldl (fun acc m => assign bytesLt m.1 m.2 acc) front := by
  induction claims generalizing front with
  | nil => rfl
  | cons m rest ih =>
      rw [List.foldl_cons, ← ih _ fun n hn => h n (List.mem_cons_of_mem _ hn)]
      show assignAll rest (front.set m.1 (reread m.2)) = _
      rw [h m List.mem_cons_self]
      rfl

/-- **Payload round trip.** The reader inverts the writer on every map whose members are storable. -/
theorem parseJson_buildJson_of_storable (claims : Claims) (hmap : claims.IsMap)
    (h : ∀ m ∈ claims, Storable m.1 m.2) : parseJson (buildJson claims) = claims := by
  have hsurvives : ∀ m ∈ claims, contained m.2 = true ∧ reread m.2 = m.2 := fun m hm =>
    (survives_iff m.2).mp (h m hm).survives
  rw [parseJson_buildJson claims fun m hm => ⟨(h m hm).plainKey, (hsurvives m hm).1⟩,
    assignAll_eq_foldl claims [] fun m hm => (hsurvives m hm).2]
  exact foldl_assign_of_pairwise bytesLt_irrefl bytesLt_asymm claims [] hmap

/-- A bare number, and a quoted value with a quote, a comma and a brace in it. -/
theorem parseJson_buildJson_of_storable_sample :
    parseJson (buildJson [(ascii "exp", ascii "1700000000"), (ascii "sub", ascii "a\",\x7d:\\\n")]) =
      [(ascii "exp", ascii "1700000000"), (ascii "sub", ascii "a\",\x7d:\\\n")] :=
  parseJson_buildJson_of_storable _ (by unfold Claims.IsMap; decide +kernel) (by
    intro m hm
    simp only [List.mem_cons, List.not_mem_nil, or_false] at hm
    rcases hm with rfl | rfl
    · exact ⟨by decide +kernel, by decide +kernel, by decide +kernel, by decide +kernel⟩
    · exact ⟨by decide +kernel, by decide +kernel, by decide +kernel, by decide +kernel⟩)

end AccountService
