import AccountService.ModelJwt

/-! What the JSON reader makes of what the JSON writer wrote. A value comes back as `reread` says when
the writer quoted it, or when it holds neither a comma nor a closing brace (`contained`). The last
section is about a value that is written bare and does hold one of them: the reader resumes inside it,
and nothing it can find there is a value as long as the one that was written. -/

namespace AccountService

open Decimal OrderedMap

/-- A byte that ends a bare value. -/
def isDelimiter (c : UInt8) : Bool := c = comma || c = closeBrace

/-- The byte that comes back for a byte of a quoted value. -/
def smudge (c : UInt8) : UInt8 := if c = 8 then 98 else if c = 12 then 102 else c

/-- What the reader returns for a value. -/
def reread (value : Bytes) : Bytes :=
  if isNumber value then value.filter (!isSpace ·) else value.map smudge

/-- The reader stops at the end of the value. -/
def contained (value : Bytes) : Bool := !isNumber value || value.all (!isDelimiter ·)

/-- The value comes back as it was: written bare, it holds no comma, closing brace or blank; quoted,
it holds no backspace and no form feed. -/
def survives (value : Bytes) : Bool :=
  if isNumber value then value.all fun c => !isDelimiter c && !isSpace c
  else value.all fun c => c ≠ 8 && c ≠ 12

/-- A key of the payload. -/
def plainKey (key : Bytes) : Bool := !key.isEmpty && decide (key.map smudge = key)

theorem smudge_eq_self_iff (c : UInt8) : smudge c = c ↔ c ≠ 8 ∧ c ≠ 12 := by
  unfold smudge
  split_ifs with hb hf
  · subst hb
    decide
  · subst hf
    decide
  · exact iff_of_true rfl ⟨hb, hf⟩

theorem survives_iff (value : Bytes) :
    survives value = true ↔ contained value = true ∧ reread value = value := by
  unfold survives contained reread
  by_cases hnum : isNumber value = true
  · simp only [hnum, if_true, Bool.not_true, Bool.false_or, List.all_eq_true, Bool.and_eq_true,
      List.filter_eq_self]
    exact ⟨fun h => ⟨fun c hc => (h c hc).1, fun c hc => (h c hc).2⟩,
      fun h c hc => ⟨h.1 c hc, h.2 c hc⟩⟩
  · simp only [hnum, Bool.false_eq_true, if_false, Bool.not_false, Bool.true_or, true_and,
      List.all_eq_true, Bool.and_eq_true, decide_eq_true_eq]
    have hmap : value.map smudge = value ↔ ∀ c ∈ value, smudge c = c := by
      simpa using List.map_inj_left (l := value) (f := smudge) (g := id)
    rw [hmap]
    exact forall₂_congr fun c _ => (smudge_eq_self_iff c).symm

theorem parseString_quote (rest : Bytes) : parseString (quote :: rest) = scanString rest := by
  rw [parseString, if_pos rfl]

theorem parseString_other {c : UInt8} (hc : c ≠ quote) (rest : Bytes) :
    parseString (c :: rest) = ([], c :: rest) := if_neg hc

theorem skipColon_other {c : UInt8} (hc : c ≠ colon) (rest : Bytes) :
    skipColon (c :: rest) = c :: rest := if_neg hc

theorem scanString_quote (rest : Bytes) : scanString (quote :: rest) = ([], rest) := by
  rw [scanString.eq_def]
  exact if_pos rfl

theorem scanString_escaped (e : UInt8) (rest : Bytes) :
    scanString (backslash :: e :: rest) = (unescape e :: (scanString rest).1, (scanString rest).2) := by
  rw [scanString, if_neg (by decide), if_pos rfl]

theorem scanString_plain {c : UInt8} (hq : c ≠ quote) (hb : c ≠ backslash) (rest : Bytes) :
    scanString (c :: rest) = (c :: (scanString rest).1, (scanString rest).2) := by
  rw [scanString.eq_def]
  show (if c = quote then _ else _) = _
  rw [if_neg hq, if_neg hb]

/-- The reader of strings on one byte as the writer escapes it. -/
theorem scanString_escapeJsonChar (c : UInt8) (rest : Bytes) :
    scanString (escapeJsonChar c ++ rest) = (smudge c :: (scanString rest).1, (scanString rest).2) := by
  unfold escapeJsonChar
  split_ifs with hquote hbackslash hb hf hn hr ht
  · subst hquote
    exact scanString_escaped _ _
  · subst hbackslash
    exact scanString_escaped _ _
  · subst hb
    exact scanString_escaped _ _
  · subst hf
    exact scanString_escaped _ _
  · subst hn
    exact scanString_escaped _ _
  · subst hr
    exact scanString_escaped _ _
  · subst ht
    exact scanString_escaped _ _
  · rw [List.singleton_append, scanString_plain hquote hbackslash, smudge, if_neg hb, if_neg hf]

theorem scanString_escapeJsonString (s rest : Bytes) :
    scanString (escapeJsonString s ++ quote :: rest) = (s.map smudge, rest) := by
  induction s with
  | nil => exact scanString_quote rest
  | cons c s ih =>
      have happ : escapeJsonString (c :: s) ++ quote :: rest =
          escapeJsonChar c ++ (escapeJsonString s ++ quote :: rest) := by
        simp [escapeJsonString]
      rw [happ, scanString_escapeJsonChar, ih, List.map_cons]

theorem scanRaw_delimiter {d : UInt8} (hd : isDelimiter d = true) (rest : Bytes) :
    scanRaw (d :: rest) = ([], d :: rest) := by
  rw [scanRaw, if_pos (by simpa [isDelimiter] using hd)]

theorem scanRaw_plain {c : UInt8} (hc : isDelimiter c = false) (rest : Bytes) :
    scanRaw (c :: rest) =
      (if isSpace c then (scanRaw rest).1 else c :: (scanRaw rest).1, (scanRaw rest).2) := by
  rw [scanRaw, if_neg (by simpa [isDelimiter] using hc)]

theorem scanRaw_contained {d : UInt8} (hd : isDelimiter d = true) (rest : Bytes) (s : Bytes)
    (hs : s.all (!isDelimiter ·) = true) :
    scanRaw (s ++ d :: rest) = (s.filter (!isSpace ·), d :: rest) := by
  induction s with
  | nil => exact scanRaw_delimiter hd rest
  | cons c s ih =>
      rw [List.all_cons, Bool.and_eq_true, Bool.not_eq_true'] at hs
      rw [List.cons_append, scanRaw_plain hs.1, ih hs.2]
      by_cases hc : isSpace c = true
      · simp [hc]
      · simp [hc]

theorem skipWhitespace_cons {c : UInt8} (hc : isSpace c = false) (rest : Bytes) :
    skipWhitespace (c :: rest) = c :: rest := by
  rw [skipWhitespace, List.dropWhile_cons_of_neg (by simp [hc])]

theorem isSpace_quote : isSpace quote = false := by decide

theorem parseValue_quote (rest : Bytes) : parseValue (quote :: rest) = scanString rest := by
  simp only [parseValue, skipWhitespace_cons isSpace_quote, if_true]

theorem parseValue_bare {c : UInt8} (hspace : isSpace c = false) (hquote : c ≠ quote) (rest : Bytes) :
    parseValue (c :: rest) = scanRaw (c :: rest) := by
  simp only [parseValue, skipWhitespace_cons hspace, if_neg hquote]

/-- The first byte of a value written bare. -/
theorem isNumber_cons {value : Bytes} (h : isNumber value = true) :
    ∃ c rest, value = c :: rest ∧ isSpace c = false ∧ c ≠ quote ∧ isDelimiter c = false := by
  cases value with
  | nil => cases h
  | cons c rest =>
      have hnum : isDigit c = true ∨ c = minus := by
        simp only [isNumber, Bool.or_eq_true, Bool.and_eq_true, decide_eq_true_eq] at h
        exact h.imp_right And.left
      refine ⟨c, rest, rfl, isSpace_eq_false_of_numeric c hnum, ?_, ?_⟩
      · rintro rfl
        rcases hnum with h | h
        · exact absurd h (by decide)
        · exact absurd h (by decide)
      · rcases hnum with h | rfl
        · rw [isDigit_iff] at h
          simp only [isDelimiter, Bool.or_eq_false_iff, decide_eq_false_iff_not]
          refine ⟨?_, ?_⟩
          · rintro rfl
            exact absurd h (by decide)
          · rintro rfl
            exact absurd h (by decide)
        · decide

theorem parseValue_jsonValue {value : Bytes} (hv : contained value = true) {d : UInt8}
    (hd : isDelimiter d = true) (rest : Bytes) :
    parseValue (jsonValue value ++ d :: rest) = (reread value, d :: rest) := by
  by_cases hnum : isNumber value = true
  · have hall : value.all (!isDelimiter ·) = true := by
      simpa only [contained, hnum, Bool.not_true, Bool.false_or] using hv
    obtain ⟨c, tail, hc, hspace, hquote, -⟩ := isNumber_cons hnum
    have hscan := scanRaw_contained hd rest value hall
    rw [jsonValue, if_pos hnum, reread, if_pos hnum]
    rw [hc, List.cons_append] at hscan ⊢
    rw [parseValue_bare hspace hquote, hscan]
  · rw [jsonValue, if_neg hnum, reread, if_neg hnum, List.singleton_append, List.append_assoc,
      List.cons_append, List.singleton_append, parseValue_quote, scanString_escapeJsonString]

theorem parseMember_eq (s : Bytes) :
    parseMember s =
      ((parseString s).1, (parseValue (skipColon (skipWhitespace (parseString s).2))).1,
        (parseValue (skipColon (skipWhitespace (parseString s).2))).2) := rfl

/-- A member up to its value. -/
theorem parseMember_key {key : Bytes} (hkey : plainKey key = true) (text : Bytes) :
    parseMember (quote :: (escapeJsonString key ++ quote :: colon :: text)) =
      (key, (parseValue text).1, (parseValue text).2) := by
  have hsmudge : key.map smudge = key := by
    simp only [plainKey, Bool.and_eq_true, decide_eq_true_eq] at hkey
    exact hkey.2
  have hstring : parseString (quote :: (escapeJsonString key ++ quote :: colon :: text)) =
      (key, colon :: text) := by
    rw [parseString_quote, scanString_escapeJsonString, hsmudge]
  have hcolon : skipColon (skipWhitespace (colon :: text)) = text := by
    rw [skipWhitespace_cons (by decide), skipColon, if_pos rfl]
  rw [parseMember_eq, hstring]
  simp only [hcolon]

theorem jsonMember_eq (key value : Bytes) :
    jsonMember key value = quote :: (escapeJsonString key ++ quote :: colon :: jsonValue value) := by
  simp [jsonMember]

theorem parseMember_jsonMember {key value : Bytes} (hkey : plainKey key = true)
    (hv : contained value = true) {d : UInt8} (hd : isDelimiter d = true) (rest : Bytes) :
    parseMember (jsonMember key value ++ d :: rest) = (key, reread value, d :: rest) := by
  have happ : jsonMember key value ++ d :: rest =
      quote :: (escapeJsonString key ++ quote :: colon :: (jsonValue value ++ d :: rest)) := by
    simp [jsonMember_eq]
  rw [happ, parseMember_key hkey, parseValue_jsonValue hv hd]

theorem parseMembers_comma (fuel : Nat) (rest : Bytes) (result : Claims) :
    parseMembers (fuel + 1) (comma :: rest) result = parseMembers fuel rest result := by
  rw [parseMembers, if_neg (List.cons_ne_nil _ _), skipWhitespace_cons (by decide),
    List.head?_cons, if_neg (by decide), if_pos rfl, List.tail_cons]

theorem parseMembers_closeBrace (fuel : Nat) (rest : Bytes) (result : Claims) :
    parseMembers (fuel + 1) (closeBrace :: rest) result = result := by
  rw [parseMembers, if_neg (List.cons_ne_nil _ _), skipWhitespace_cons (by decide),
    List.head?_cons, if_pos rfl]

/-- A turn of the loop that reads a member. -/
theorem parseMembers_step {c : UInt8} (hspace : isSpace c = false) (hdelim : isDelimiter c = false)
    (fuel : Nat) (rest : Bytes) (result : Claims) :
    parseMembers (fuel + 1) (c :: rest) result =
      parseMembers fuel (parseMember (c :: rest)).2.2
        (if (parseMember (c :: rest)).1 = [] then result
          else result.set (parseMember (c :: rest)).1 (parseMember (c :: rest)).2.1) := by
  simp only [isDelimiter, Bool.or_eq_false_iff, decide_eq_false_iff_not] at hdelim
  rw [parseMembers, if_neg (List.cons_ne_nil _ _), skipWhitespace_cons hspace, List.head?_cons,
    if_neg (by simpa using hdelim.2), if_neg (by simpa using hdelim.1)]

theorem parseMembers_jsonMember {key value : Bytes} (hkey : plainKey key = true)
    (hv : contained value = true) {d : UInt8} (hd : isDelimiter d = true) (fuel : Nat) (rest : Bytes)
    (result : Claims) :
    parseMembers (fuel + 1) (jsonMember key value ++ d :: rest) result =
      parseMembers fuel (d :: rest) (result.set key (reread value)) := by
  have hne : key ≠ [] := by
    simp only [plainKey, Bool.and_eq_true, Bool.not_eq_true', List.isEmpty_eq_false_iff] at hkey
    exact hkey.1
  have hmember := parseMember_jsonMember hkey hv hd rest
  rw [jsonMember_eq, List.cons_append] at hmember ⊢
  rw [parseMembers_step isSpace_quote (by decide), hmember]
  simp only [if_neg hne]

/-- The members in front of another one. -/
def leadingText (members : Claims) : Bytes := members.flatMap fun m => jsonMember m.1 m.2 ++ [comma]

/-- The members behind another one. -/
def trailingText (members : Claims) : Bytes := members.flatMap fun m => comma :: jsonMember m.1 m.2

/-- The reader gets through a member and returns it as `reread` says. -/
def Readable (members : Claims) : Prop :=
  ∀ m ∈ members, plainKey m.1 = true ∧ contained m.2 = true

/-- The assignments the reader makes for a list of members. -/
def assignAll (members : Claims) (result : Claims) : Claims :=
  members.foldl (fun result m => result.set m.1 (reread m.2)) result

theorem jsonMembers_split (leading trailing : Claims) (key value : Bytes) :
    jsonMembers (leading ++ (key, value) :: trailing) =
      leadingText leading ++ jsonMember key value ++ trailingText trailing := by
  induction leading with
  | nil =>
      induction trailing generalizing key value with
      | nil => simp [jsonMembers, leadingText, trailingText]
      | cons m trailing ih =>
          have := ih m.1 m.2
          simp only [List.nil_append, leadingText, List.flatMap_nil] at this ⊢
          rw [jsonMembers, this]
          · simp [trailingText]
          · exact List.cons_ne_nil _ _
  | cons m leading ih =>
      rw [List.cons_append, jsonMembers, ih]
      · simp [leadingText]
      · simp

theorem length_jsonMember (key value : Bytes) : 1 ≤ (jsonMember key value).length := by
  rw [jsonMember_eq, List.length_cons]
  omega

theorem length_leadingText (members : Claims) : 2 * members.length ≤ (leadingText members).length := by
  induction members with
  | nil => exact Nat.zero_le _
  | cons m members ih =>
      have hlen := length_jsonMember m.1 m.2
      simp only [leadingText, List.flatMap_cons, List.length_append, List.length_cons] at ih ⊢
      omega

theorem length_trailingText (members : Claims) : 2 * members.length ≤ (trailingText members).length := by
  induction members with
  | nil => exact Nat.zero_le _
  | cons m members ih =>
      have hlen := length_jsonMember m.1 m.2
      simp only [trailingText, List.flatMap_cons, List.length_append, List.length_cons] at ih ⊢
      omega

theorem parseMembers_leadingText (members : Claims) (hm : Readable members) (fuel : Nat)
    (rest : Bytes) (result : Claims) :
    parseMembers (fuel + 2 * members.length) (leadingText members ++ rest) result =
      parseMembers fuel rest (assignAll members result) := by
  induction members generalizing result with
  | nil => rfl
  | cons m members ih =>
      obtain ⟨hkey, hv⟩ := hm m List.mem_cons_self
      have htext : leadingText (m :: members) ++ rest =
          jsonMember m.1 m.2 ++ comma :: (leadingText members ++ rest) := by
        simp [leadingText]
      have hfuel : fuel + 2 * (m :: members).length = fuel + 2 * members.length + 1 + 1 := by
        rw [List.length_cons]
        omega
      rw [htext, hfuel, parseMembers_jsonMember hkey hv (by decide), parseMembers_comma,
        ih (fun x hx => hm x (List.mem_cons_of_mem _ hx))]
      rfl

/-- The members behind, with any number of turns: as many assignments as there are turns for. -/
theorem parseMembers_trailingText (members : Claims) (hm : Readable members) (fuel : Nat)
    (rest : Bytes) (result : Claims) :
    ∃ n, parseMembers fuel (trailingText members ++ closeBrace :: rest) result =
        assignAll (members.take n) result ∧ (2 * members.length < fuel → n = members.length) := by
  induction members generalizing fuel result with
  | nil =>
      cases fuel with
      | zero => exact ⟨0, rfl, fun _ => rfl⟩
      | succ fuel => exact ⟨0, parseMembers_closeBrace fuel rest result, fun _ => rfl⟩
  | cons m members ih =>
      obtain ⟨hkey, hv⟩ := hm m List.mem_cons_self
      have hm' : Readable members := fun x hx => hm x (List.mem_cons_of_mem _ hx)
      have hdelim : ∃ d text, isDelimiter d = true ∧
          trailingText members ++ closeBrace :: rest = d :: text := by
        cases members with
        | nil => exact ⟨closeBrace, rest, by decide, rfl⟩
        | cons m' members => exact ⟨comma, _, by decide, rfl⟩
      obtain ⟨d, text, hd, htail⟩ := hdelim
      have htext : trailingText (m :: members) ++ closeBrace :: rest =
          comma :: (jsonMember m.1 m.2 ++ d :: text) := by
        rw [← htail]
        simp [trailingText]
      rw [htext]
      cases fuel with
      | zero => exact ⟨0, rfl, fun h => absurd h (Nat.not_lt_zero _)⟩
      | succ fuel =>
          rw [parseMembers_comma]
          cases fuel with
          | zero => exact ⟨0, rfl, fun h => absurd h (by rw [List.length_cons]; omega)⟩
          | succ fuel =>
              obtain ⟨n, hn, hfull⟩ := ih hm' fuel (result.set m.1 (reread m.2))
              rw [parseMembers_jsonMember hkey hv hd, ← htail, hn]
              refine ⟨n + 1, rfl, fun h => ?_⟩
              rw [List.length_cons] at h ⊢
              rw [hfull (by omega)]

theorem parseJson_openBrace (rest : Bytes) :
    parseJson (openBrace :: rest) = parseMembers (rest.length + 1) rest [] := by
  simp only [parseJson, skipWhitespace_cons (show isSpace openBrace = false by decide), if_true]

/-- The text of a payload, cut in front of one of its members. -/
theorem buildJson_split (leading trailing : Claims) (key value : Bytes) :
    buildJson (leading ++ (key, value) :: trailing) =
      openBrace :: (leadingText leading ++
        (jsonMember key value ++ (trailingText trailing ++ [closeBrace]))) := by
  rw [buildJson, jsonMembers_split]
  simp

/-- The reader arrives at the member with all the turns it needs for the rest. -/
theorem parseJson_buildJson_split (leading trailing : Claims) (key value : Bytes)
    (hl : Readable leading) :
    ∃ fuel, 2 * trailing.length + 2 < fuel ∧
      parseJson (buildJson (leading ++ (key, value) :: trailing)) =
        parseMembers fuel (jsonMember key value ++ (trailingText trailing ++ [closeBrace]))
          (assignAll leading []) := by
  have hlead := length_leadingText leading
  have htrail := length_trailingText trailing
  have hmember := length_jsonMember key value
  obtain ⟨fuel, hfuel⟩ : ∃ fuel, (leadingText leading ++ (jsonMember key value ++
      (trailingText trailing ++ [closeBrace]))).length + 1 = fuel + 2 * leading.length := by
    refine ⟨_, (Nat.sub_add_cancel ?_).symm⟩
    simp only [List.length_append]
    omega
  refine ⟨fuel, ?_, ?_⟩
  · simp only [List.length_append, List.length_singleton] at hfuel
    omega
  · rw [buildJson_split, parseJson_openBrace, hfuel, parseMembers_leadingText leading hl]

/-- **Reading back.** The reader assigns every readable member the value `reread` gives for it. -/
theorem parseJson_buildJson (claims : Claims) (h : Readable claims) :
    parseJson (buildJson claims) = assignAll claims [] := by
  cases claims with
  | nil => rfl
  | cons m trailing =>
      obtain ⟨hkey, hv⟩ := h m List.mem_cons_self
      have htrail : Readable trailing := fun x hx => h x (List.mem_cons_of_mem _ hx)
      obtain ⟨fuel, hfuel, hparse⟩ := parseJson_buildJson_split [] trailing m.1 m.2
        (fun x hx => absurd hx List.not_mem_nil)
      obtain ⟨fuel, rfl⟩ : ∃ f, fuel = f + 1 := ⟨fuel - 1, by omega⟩
      have hdelim : ∃ d text, isDelimiter d = true ∧ trailingText trailing ++ [closeBrace] = d :: text := by
        cases trailing with
        | nil => exact ⟨closeBrace, [], by decide, rfl⟩
        | cons m' rest => exact ⟨comma, _, by decide, rfl⟩
      obtain ⟨d, text, hd, htext⟩ := hdelim
      obtain ⟨n, hn, hall⟩ := parseMembers_trailingText trailing htrail fuel []
        (Claims.set [] m.1 (reread m.2))
      rw [List.nil_append] at hparse
      rw [hparse, htext]
      show parseMembers (fuel + 1) (jsonMember m.1 m.2 ++ d :: text) [] = _
      rw [parseMembers_jsonMember hkey hv hd, ← htext, hn, hall (by omega), List.take_length]
      rfl

theorem find_assignAll {key : Bytes} (members : Claims) (hkey : key ∉ members.map Prod.fst)
    (result : Claims) : (assignAll members result).find key = result.find key := by
  induction members generalizing result with
  | nil => rfl
  | cons m members ih =>
      rw [List.map_cons, List.mem_cons, not_or] at hkey
      show (assignAll members (result.set m.1 (reread m.2))).find key = _
      rw [ih hkey.2]
      exact find_assign_ne bytesLt _ _ hkey.1

theorem skipWhitespace_append {d : UInt8} (hd : isSpace d = false) (s rest : Bytes) :
    skipWhitespace (s ++ d :: rest) = skipWhitespace s ++ d :: rest := by
  induction s with
  | nil => exact skipWhitespace_cons hd rest
  | cons c s ih =>
      by_cases hc : isSpace c = true
      · simp only [skipWhitespace, List.cons_append, List.dropWhile_cons_of_pos hc] at ih ⊢
        exact ih
      · rw [Bool.not_eq_true] at hc
        rw [List.cons_append, skipWhitespace_cons hc, skipWhitespace_cons hc, List.cons_append]

theorem length_skipWhitespace (s : Bytes) : (skipWhitespace s).length ≤ s.length :=
  List.length_dropWhile_le _ _

/-- A bare value that starts inside `s` ends inside `s`. -/
theorem scanRaw_inside {d : UInt8} (hd : isDelimiter d = true) (rest s : Bytes) :
    ∃ v s', scanRaw (s ++ d :: rest) = (v, s' ++ d :: rest) ∧ v.length + s'.length ≤ s.length ∧
      (s.any isDelimiter = true → s' ≠ []) := by
  induction s with
  | nil => exact ⟨[], [], scanRaw_delimiter hd rest, Nat.le_refl _, fun h => absurd h (by decide)⟩
  | cons c s ih =>
      by_cases hc : isDelimiter c = true
      · refine ⟨[], c :: s, scanRaw_delimiter hc _, ?_, fun _ => List.cons_ne_nil _ _⟩
        rw [List.length_nil, Nat.zero_add]
      · rw [Bool.not_eq_true] at hc
        obtain ⟨v, s', hscan, hlen, hany⟩ := ih
        refine ⟨if isSpace c then v else c :: v, s', ?_, ?_, fun h => hany ?_⟩
        · rw [List.cons_append, scanRaw_plain hc, hscan]
        · rw [List.length_cons]
          split
          · omega
          · rw [List.length_cons]
            omega
        · simpa [List.any_cons, hc] using h

/-- A string that starts inside `s` ends inside `s`, or at the quote behind the comma that follows
`s`; in the second case it holds that comma. -/
theorem scanString_inside (t s : Bytes) :
    (∃ v s', scanString (s ++ comma :: quote :: t) = (v, s' ++ comma :: quote :: t) ∧
      v.length ≤ s.length ∧ s'.length ≤ s.length) ∨
    (∃ v, scanString (s ++ comma :: quote :: t) = (v, t) ∧ comma ∈ v ∧ v.length ≤ s.length + 1) := by
  have hcomma : scanString (comma :: quote :: t) = ([comma], t) := by
    rw [scanString_plain (by decide) (by decide), scanString_quote]
  induction s using List.twoStepInduction with
  | nil => exact Or.inr ⟨[comma], hcomma, List.mem_singleton_self _, Nat.le_refl _⟩
  | singleton c =>
      by_cases hq : c = quote
      · subst hq
        exact Or.inl ⟨[], [], scanString_quote _, Nat.zero_le _, Nat.zero_le _⟩
      · by_cases hb : c = backslash
        · subst hb
          refine Or.inr ⟨[comma], ?_, List.mem_singleton_self _, by decide⟩
          rw [List.singleton_append, scanString_escaped, scanString_quote]
          rfl
        · refine Or.inr ⟨[c, comma], ?_, by simp, Nat.le_refl _⟩
          rw [List.singleton_append, scanString_plain hq hb, hcomma]
  | cons_cons c e s ih ihe =>
      by_cases hq : c = quote
      · subst hq
        refine Or.inl ⟨[], e :: s, scanString_quote _, Nat.zero_le _, ?_⟩
        simp only [List.length_cons]
        omega
      · by_cases hb : c = backslash
        · subst hb
          rw [List.cons_append, List.cons_append, scanString_escaped]
          rcases ih with ⟨v, s', hscan, hv, hs⟩ | ⟨v, hscan, hmem, hv⟩
          · refine Or.inl ⟨unescape e :: v, s', by rw [hscan], ?_, ?_⟩
            · simp only [List.length_cons]
              omega
            · simp only [List.length_cons]
              omega
          · refine Or.inr ⟨unescape e :: v, by rw [hscan], List.mem_cons_of_mem _ hmem, ?_⟩
            simp only [List.length_cons]
            omega
        · rw [List.cons_append, scanString_plain hq hb]
          rcases ihe e with ⟨v, s', hscan, hv, hs⟩ | ⟨v, hscan, hmem, hv⟩
          · refine Or.inl ⟨c :: v, s', by rw [hscan], ?_, ?_⟩
            · simp only [List.length_cons] at hv ⊢
              omega
            · simp only [List.length_cons] at hs ⊢
              omega
          · refine Or.inr ⟨c :: v, by rw [hscan], List.mem_cons_of_mem _ hmem, ?_⟩
            simp only [List.length_cons] at hv ⊢
            omega

theorem parseValue_inside (t s : Bytes) :
    (∃ v s', parseValue (s ++ comma :: quote :: t) = (v, s' ++ comma :: quote :: t) ∧
      v.length ≤ s.length ∧ s'.length ≤ s.length) ∨
    (∃ v, parseValue (s ++ comma :: quote :: t) = (v, t) ∧ v.length ≤ s.length) := by
  have hskip := skipWhitespace_append (show isSpace comma = false by decide) s (quote :: t)
  have hlen := length_skipWhitespace s
  unfold parseValue
  rw [hskip]
  cases hs : skipWhitespace s with
  | nil =>
      refine Or.inl ⟨[], [], ?_, Nat.zero_le _, Nat.zero_le _⟩
      show (if comma = quote then _ else _) = _
      rw [if_neg (by decide), scanRaw_delimiter (by decide)]
      rfl
  | cons c s₁ =>
      rw [hs, List.length_cons] at hlen
      show (∃ v s', (if c = quote then _ else _) = _ ∧ _) ∨ ∃ v, (if c = quote then _ else _) = _ ∧ _
      by_cases hq : c = quote
      · rw [if_pos hq]
        rcases scanString_inside t s₁ with ⟨v, s', hscan, hv, hs'⟩ | ⟨v, hscan, -, hv⟩
        · exact Or.inl ⟨v, s', hscan, by omega, by omega⟩
        · exact Or.inr ⟨v, hscan, by omega⟩
      · rw [if_neg hq]
        obtain ⟨v, s', hscan, hv, -⟩ :=
          scanRaw_inside (show isDelimiter comma = true by decide) (quote :: t) (c :: s₁)
        rw [List.length_cons] at hv
        exact Or.inl ⟨v, s', hscan, by omega, by omega⟩

/-- Skipping the colon and the blanks before it keeps the reader inside. -/
theorem skipColon_inside (t s : Bytes) :
    ∃ s', skipColon (skipWhitespace (s ++ comma :: quote :: t)) = s' ++ comma :: quote :: t ∧
      s'.length ≤ s.length := by
  have hlen := length_skipWhitespace s
  rw [skipWhitespace_append (by decide)]
  cases hs : skipWhitespace s with
  | nil => exact ⟨[], skipColon_other (by decide) _, Nat.zero_le _⟩
  | cons c s₁ =>
      rw [hs, List.length_cons] at hlen
      by_cases hc : c = colon
      · exact ⟨s₁, if_pos hc, by omega⟩
      · exact ⟨c :: s₁, skipColon_other hc _, by rw [List.length_cons]; omega⟩

/-- What reading a member inside `s` can come to: the reader is still inside, or behind the quote that
opens the next member, and the value is no longer than `s`; or the key ran over the end of `s`. -/
theorem parseMember_inside (t s : Bytes) :
    (∃ k v s', parseMember (s ++ comma :: quote :: t) = (k, v, s' ++ comma :: quote :: t) ∧
      v.length ≤ s.length ∧ s'.length ≤ s.length) ∨
    (∃ k v, parseMember (s ++ comma :: quote :: t) = (k, v, t) ∧ v.length ≤ s.length) ∨
    (∃ k, comma ∈ k ∧ parseMember (s ++ comma :: quote :: t) =
      (k, (parseValue (skipColon (skipWhitespace t))).1,
        (parseValue (skipColon (skipWhitespace t))).2)) := by
  have hinside : ∀ k s₁, s₁.length ≤ s.length →
      parseString (s ++ comma :: quote :: t) = (k, s₁ ++ comma :: quote :: t) →
      (∃ k v s', parseMember (s ++ comma :: quote :: t) = (k, v, s' ++ comma :: quote :: t) ∧
        v.length ≤ s.length ∧ s'.length ≤ s.length) ∨
      (∃ k v, parseMember (s ++ comma :: quote :: t) = (k, v, t) ∧ v.length ≤ s.length) := by
    intro k s₁ hlen hstring
    obtain ⟨s₂, hcolon, hlen₂⟩ := skipColon_inside t s₁
    rw [parseMember_eq, hstring]
    simp only [hcolon]
    rcases parseValue_inside t s₂ with ⟨v, s', hvalue, hv, hs'⟩ | ⟨v, hvalue, hv⟩
    · exact Or.inl ⟨k, v, s', by rw [hvalue], by omega, by omega⟩
    · exact Or.inr ⟨k, v, by rw [hvalue], by omega⟩
  cases s with
  | nil =>
      rcases hinside [] [] (Nat.le_refl _) (parseString_other (by decide) _) with h | h
      · exact Or.inl h
      · exact Or.inr (Or.inl h)
  | cons c s₁ =>
      by_cases hq : c = quote
      · have hstring : parseString (c :: s₁ ++ comma :: quote :: t) =
            scanString (s₁ ++ comma :: quote :: t) := by
          rw [hq, List.cons_append, parseString_quote]
        rcases scanString_inside t s₁ with ⟨k, s', hscan, -, hs'⟩ | ⟨k, hscan, hmem, -⟩
        · rcases hinside k s' (by rw [List.length_cons]; omega) (hstring.trans hscan) with h | h
          · exact Or.inl h
          · exact Or.inr (Or.inl h)
        · refine Or.inr (Or.inr ⟨k, hmem, ?_⟩)
          rw [parseMember_eq, hstring, hscan]
      · rcases hinside [] (c :: s₁) (Nat.le_refl _) (parseString_other hq _) with h | h
        · exact Or.inl h
        · exact Or.inr (Or.inl h)

/-- The value of `key` is there and shorter than `n`. -/
def ShortValue (key : Bytes) (n : Nat) (result : Claims) : Prop :=
  ∃ v, result.find key = some v ∧ v.length < n

theorem ShortValue.set {key : Bytes} {n : Nat} {result : Claims} (h : ShortValue key n result)
    {k v : Bytes} (hkv : k = key → v.length < n) : ShortValue key n (result.set k v) := by
  by_cases hk : k = key
  · subst hk
    exact ⟨v, find_assign_self bytesLt k v result, hkv rfl⟩
  · obtain ⟨u, hu, hlen⟩ := h
    exact ⟨u, (find_assign_ne bytesLt v result (Ne.symm hk)).trans hu, hlen⟩

theorem ShortValue.setUnlessEmpty {key : Bytes} {n : Nat} {result : Claims}
    (h : ShortValue key n result) {k v : Bytes} (hkv : k = key → v.length < n) :
    ShortValue key n (if k = [] then result else result.set k v) := by
  split
  · exact h
  · exact h.set hkv

section Inside

variable {key : Bytes} {n : Nat} {c : UInt8} {t w after : Bytes}

/-- **Inside a bare value.** Whatever is left of the value, the reader never assigns `key` anything as
long as the value was. The text behind the value opens a member with a quote and then `c`; a key or a
string that runs over the end stops at that quote, and the reader is in step again at `after`. -/
theorem parseMembers_inside (hkey : comma ∉ key) (hspace : isSpace c = false)
    (hdelim : isDelimiter c = false) (hquote : c ≠ quote)
    (hjump : parseValue (skipColon (skipWhitespace (c :: t))) = (w, after))
    (hnext : ∀ fuel result, ShortValue key n result →
      ShortValue key n (parseMembers fuel (comma :: quote :: c :: t) result))
    (hafter : ∀ fuel result, ShortValue key n result →
      ShortValue key n (parseMembers fuel after result))
    (fuel : Nat) (s : Bytes) (result : Claims) (hlen : s.length < n)
    (hshort : ShortValue key n result) :
    ShortValue key n (parseMembers fuel (s ++ comma :: quote :: c :: t) result) := by
  have hover : ∀ fuel result, ShortValue key n result →
      ShortValue key n (parseMembers fuel (c :: t) result) := by
    intro fuel result h
    cases fuel with
    | zero => exact h
    | succ fuel =>
        rw [parseMembers_step hspace hdelim, parseMember_eq, parseString_other hquote, hjump]
        exact hafter fuel result h
  induction fuel generalizing s result with
  | zero => exact hshort
  | succ fuel ih =>
      have hskip := skipWhitespace_append (show isSpace comma = false by decide) s (quote :: c :: t)
      have hlen' : (skipWhitespace s).length < n := lt_of_le_of_lt (length_skipWhitespace s) hlen
      have hne : s ++ comma :: quote :: c :: t ≠ [] := by simp
      cases hs : skipWhitespace s with
      | nil =>
          have hstep : parseMembers (fuel + 1) (s ++ comma :: quote :: c :: t) result =
              parseMembers (fuel + 1) (comma :: quote :: c :: t) result := by
            rw [parseMembers, if_neg hne, hskip, hs, List.nil_append, parseMembers_comma,
              List.head?_cons, if_neg (by decide), if_pos rfl, List.tail_cons]
          rw [hstep]
          exact hnext (fuel + 1) result hshort
      | cons d s₁ =>
          rw [hs] at hlen'
          have hlen₁ : s₁.length < n := by
            rw [List.length_cons] at hlen'
            omega
          rw [parseMembers, if_neg hne, hskip, hs, List.cons_append, List.head?_cons, List.tail_cons]
          by_cases hclose : d = closeBrace
          · rw [if_pos (by rw [hclose])]
            exact hshort
          · rw [if_neg (by simpa using hclose)]
            by_cases hcomma : d = comma
            · rw [if_pos (by rw [hcomma])]
              exact ih s₁ result hlen₁ hshort
            · rw [if_neg (by simpa using hcomma), ← List.cons_append]
              rcases parseMember_inside (c :: t) (d :: s₁) with
                ⟨k, v, s', hm, hv, hs'⟩ | ⟨k, v, hm, hv⟩ | ⟨k, hk, hm⟩
              · rw [hm]
                exact ih s' _ (by omega) (hshort.setUnlessEmpty fun _ => by omega)
              · rw [hm]
                exact hover fuel _ (hshort.setUnlessEmpty fun _ => by omega)
              · rw [hm, hjump]
                refine hafter fuel _ (hshort.setUnlessEmpty fun h => ?_)
                rw [h] at hk
                exact absurd hk hkey

end Inside

end AccountService
