import AccountService.LibraryPaging
import AccountService.ModelUser

/-! `ListUsers`: the count and the listing filter alike, and the pages that the offsets and limits cut
out are a partition of the rows that pass the filters, as long as the offset is a number that `int`
holds. The page comes from the request and is only bounded from below, so that the product of page and
size can leave that range. -/

namespace AccountService

open Interaction

/-- `page > 0 ? page : 1`. -/
def normalPage (page : Int32) : Int32 := if 0 < page then page else 1

/-- `page_size > 0 ? page_size : 20`, and 100 at most. -/
def normalPageSize (pageSize : Int32) : Int32 :=
  let pageSize := if 0 < pageSize then pageSize else 20
  if 100 < pageSize then 100 else pageSize

/-- The conditions `ListUsers` hands on. -/
def filterOf (mobileFilter : Option Bytes) (disabledFilter : Option Bool) : UserFilter :=
  ⟨mobileFilter.filter (· ≠ []), disabledFilter⟩

theorem normalPage_range (page : Int32) :
    1 ≤ (normalPage page).toInt ∧ (normalPage page).toInt < 2 ^ 31 := by
  refine ⟨?_, Int32.toInt_lt _⟩
  unfold normalPage
  split_ifs with h
  · rw [Int32.lt_iff_toInt_lt, Int32.toInt_zero] at h
    omega
  · decide

theorem normalPageSize_range (pageSize : Int32) :
    1 ≤ (normalPageSize pageSize).toInt ∧ (normalPageSize pageSize).toInt ≤ 100 := by
  have h100 : (100 : Int32).toInt = 100 := by decide
  have hpositive : 1 ≤ (if 0 < pageSize then pageSize else 20).toInt := by
    split_ifs with hpos
    · rw [Int32.lt_iff_toInt_lt, Int32.toInt_zero] at hpos
      omega
    · decide
  show 1 ≤ (if 100 < _ then 100 else _ : Int32).toInt ∧ (if 100 < _ then 100 else _ : Int32).toInt ≤ 100
  generalize (if 0 < pageSize then pageSize else 20) = size at hpositive ⊢
  split_ifs with hcap
  · decide
  · rw [Int32.lt_iff_toInt_lt, h100] at hcap
    omega

/-- The offset as `PageParams::Offset` computes it. -/
def offset (page pageSize : Int32) : Int32 := (normalPage page - 1) * normalPageSize pageSize

/-- The offset as a number. -/
def exactOffset (page pageSize : Int32) : Int :=
  ((normalPage page).toInt - 1) * (normalPageSize pageSize).toInt

theorem exactOffset_nonneg (page pageSize : Int32) : 0 ≤ exactOffset page pageSize := by
  obtain ⟨hpage, -⟩ := normalPage_range page
  obtain ⟨hsize, -⟩ := normalPageSize_range pageSize
  exact Int.mul_nonneg (by omega) (by omega)

/-- The product is the exact one as long as it is in the range of `int`. -/
theorem offset_eq_iff (page pageSize : Int32) :
    (offset page pageSize).toInt = exactOffset page pageSize ↔ exactOffset page pageSize < 2 ^ 31 := by
  constructor
  · intro h
    rw [← h]
    exact Int32.toInt_lt _
  · intro h
    obtain ⟨hpage, hlt⟩ := normalPage_range page
    have hfirst : (normalPage page - 1).toInt = (normalPage page).toInt - 1 := by
      rw [Int32.toInt_sub, show (1 : Int32).toInt = 1 by decide]
      exact Int.bmod_eq_of_le (by omega) (by omega)
    have hnonneg := exactOffset_nonneg page pageSize
    rw [offset, Int32.toInt_mul, hfirst]
    exact Int.bmod_eq_of_le (by unfold exactOffset at hnonneg; omega) (by unfold exactOffset at h; omega)

section Statements

variable (mobileFilter : Option Bytes) (disabledFilter : Option Bool)

/-- The second test for an empty text changes nothing. -/
theorem filterOf_filter :
    (⟨(filterOf mobileFilter disabledFilter).mobileLike.filter (· ≠ []), disabledFilter⟩ : UserFilter) =
      filterOf mobileFilter disabledFilter := by
  cases mobileFilter with
  | none => rfl
  | some text => by_cases htext : text = [] <;> simp [filterOf, Option.filter, htext]

theorem count_filterOf :
    UserDB.count (filterOf mobileFilter disabledFilter) =
      sqlCall (.countUsers (filterOf mobileFilter disabledFilter)) := by
  let call (f : UserFilter) : Action (Result Nat) := sqlCall (.countUsers f)
  exact congrArg call (filterOf_filter mobileFilter disabledFilter)

theorem findAll_filterOf (page pageSize : Int32) :
    UserDB.findAll (filterOf mobileFilter disabledFilter) page pageSize =
      sqlCall (.selectUsers (filterOf mobileFilter disabledFilter) ((page - 1) * pageSize).toInt
        pageSize.toInt) := by
  let call (f : UserFilter) : Action (Result (List UserEntity)) :=
    sqlCall (.selectUsers f ((page - 1) * pageSize).toInt pageSize.toInt)
  exact congrArg call (filterOf_filter mobileFilter disabledFilter)

/-- The two statements of `ListUsers`, with one filter. -/
theorem listUsers_eq (page pageSize : Int32) :
    UserService.listUsers mobileFilter disabledFilter page pageSize = (do
      orFail (← sqlCall (.countUsers (filterOf mobileFilter disabledFilter))) fun totalRecords => do
      orFail (← sqlCall (.selectUsers (filterOf mobileFilter disabledFilter)
        (offset page pageSize).toInt (normalPageSize pageSize).toInt)) fun users =>
      return .ok {
        users := users.map UserEntity.cleared
        pageRes := {
          totalRecords := Int32.ofInt totalRecords
          totalPages := Int32.ofInt ((totalRecords + (normalPageSize pageSize).toInt - 1) /
            (normalPageSize pageSize).toInt)
          page := normalPage page
          pageSize := normalPageSize pageSize } }) := by
  rw [← count_filterOf]
  simp only [offset, ← findAll_filterOf]
  rfl

theorem run_countUsers (f : UserFilter) {w : World} (hw : w.sqlFaults = []) :
    Program.run exec (sqlCall (.countUsers f)) w = (.ok (w.db.users.countP f.Matches), w) := by
  rw [sqlCall, Program.run_bind, run_sql, execSql_eq hw]
  rfl

theorem run_selectUsers (f : UserFilter) {offset limit : Int} (hlimit : 0 ≤ limit) {w : World}
    (hw : w.sqlFaults = []) :
    Program.run exec (sqlCall (.selectUsers f offset limit)) w =
      (if offset < 0 then failPlain .serviceUnavailable
        else .ok ((((w.db.users.filter f.Matches).insertionSort UserEntity.NotAfter).drop
          offset.toNat).take limit.toNat), w) := by
  rw [sqlCall, Program.run_bind, run_sql, execSql_eq hw]
  simp only [SqlStmt.apply]
  by_cases hneg : offset < 0
  · rw [if_pos hneg, if_pos (Or.inl hneg)]
    rfl
  · rw [if_neg hneg, if_neg (not_or.mpr ⟨hneg, Int.not_lt.mpr hlimit⟩)]
    rfl

/-- The rows that pass the filters, in the order of the listing. -/
def listing (db : Database) : List UserEntity :=
  (db.users.filter (filterOf mobileFilter disabledFilter).Matches).insertionSort UserEntity.NotAfter

/-- What `ListUsers` returns when MySQL answers: an error for a negative offset, else the rows from the
offset on. -/
theorem run_listUsers (page pageSize : Int32) {w : World} (hw : w.sqlFaults = []) :
    (Action.run (UserService.listUsers mobileFilter disabledFilter page pageSize) w).1 =
      if (offset page pageSize).toInt < 0 then failPlain .serviceUnavailable
      else .ok {
        users := (((listing mobileFilter disabledFilter w.db).drop (offset page pageSize).toInt.toNat).take
          (normalPageSize pageSize).toInt.toNat).map UserEntity.cleared
        pageRes := {
          totalRecords := Int32.ofInt (listing mobileFilter disabledFilter w.db).length
          totalPages := Int32.ofInt (((listing mobileFilter disabledFilter w.db).length +
            (normalPageSize pageSize).toInt - 1) / (normalPageSize pageSize).toInt)
          page := normalPage page
          pageSize := normalPageSize pageSize } } := by
  have hlimit : 0 ≤ (normalPageSize pageSize).toInt := by
    have := normalPageSize_range pageSize
    omega
  have hcount : w.db.users.countP (filterOf mobileFilter disabledFilter).Matches =
      (listing mobileFilter disabledFilter w.db).length := by
    rw [listing, List.length_insertionSort, List.countP_eq_length_filter]
  rw [listUsers_eq, Action.run, Program.run_bind, run_countUsers _ hw]
  show (Program.run exec (sqlCall (.selectUsers (filterOf mobileFilter disabledFilter)
    (offset page pageSize).toInt (normalPageSize pageSize).toInt) >>= _) w).1 = _
  rw [Program.run_bind, run_selectUsers _ hlimit hw, hcount]
  by_cases hneg : (offset page pageSize).toInt < 0
  · rw [if_pos hneg, if_pos hneg]
    rfl
  · rw [if_neg hneg, if_neg hneg]
    rfl

/-- The offset of a listing satisfies `P`. -/
def SendsOffset (P : Int → Prop) : Cmd → Prop
  | .sql (.selectUsers _ sent _) => P sent
  | _ => True

/-- Every listing the request can send has the exact offset, and the request is answered whenever MySQL
answers. -/
def OffsetExact (page pageSize : Int32) : Prop :=
  Program.Uses (SendsOffset (· = exactOffset page pageSize))
    (UserService.listUsers mobileFilter disabledFilter page pageSize) ∧
  ∀ w : World, w.sqlFaults = [] →
    ∃ list, (Action.run (UserService.listUsers mobileFilter disabledFilter page pageSize) w).1 = .ok list

/-- The one listing the request sends. -/
theorem uses_listUsers_iff (P : Int → Prop) (page pageSize : Int32) :
    Program.Uses (SendsOffset P) (UserService.listUsers mobileFilter disabledFilter page pageSize) ↔
      P (offset page pageSize).toInt := by
  rw [listUsers_eq]
  constructor
  · intro h
    exact (h.2 (.ok (0 : Nat))).1
  · intro h
    refine ⟨trivial, ?_⟩
    rintro (e | n)
    · trivial
    · refine ⟨h, ?_⟩
      rintro (e | users) <;> trivial

/-- **Offsets.** The request sends the exact offset, and no offset makes it fail, exactly when the
product of page and size is in the range of `int`. -/
theorem offset_exact_iff (page pageSize : Int32) :
    OffsetExact mobileFilter disabledFilter page pageSize ↔ exactOffset page pageSize < 2 ^ 31 := by
  rw [OffsetExact, uses_listUsers_iff mobileFilter disabledFilter (· = exactOffset page pageSize),
    offset_eq_iff]
  refine and_iff_left_of_imp fun h w hw => ?_
  have hneg : ¬ (offset page pageSize).toInt < 0 := by
    rw [(offset_eq_iff page pageSize).mpr h]
    exact Int.not_lt.mpr (exactOffset_nonneg page pageSize)
  rw [run_listUsers mobileFilter disabledFilter page pageSize hw, if_neg hneg]
  exact ⟨_, rfl⟩

end Statements

/-- The last page a request can name, with a hundred entries: the product wraps to -200 and MySQL
refuses the query. -/
theorem offset_overflows :
    exactOffset 2147483647 100 = 214748364600 ∧ (offset 2147483647 100).toInt = -200 ∧
      (Action.run (UserService.listUsers none none 2147483647 100) (emptyWorld 0)).1 =
        failPlain .serviceUnavailable ∧
      ¬ OffsetExact none none 2147483647 100 := by
  refine ⟨by decide, by decide, ?_, ?_⟩
  · rw [run_listUsers none none 2147483647 100 rfl, if_pos (by decide)]
  · rw [offset_exact_iff]
    decide

instance : Std.Total UserEntity.NotAfter where
  total a b := by
    unfold UserEntity.NotAfter
    omega

instance : IsTrans UserEntity UserEntity.NotAfter where
  trans a b c hab hbc := by
    unfold UserEntity.NotAfter at hab hbc ⊢
    omega

/-- A successful reply with these entries and numbers. -/
def ReturnsPage (reply : Result ListUsersResult) (users : List UserEntity) (totalRecords totalPages : Nat) :
    Prop :=
  ∃ list, reply = .ok list ∧ list.users = users ∧ list.pageRes.totalRecords.toInt = totalRecords ∧
    list.pageRes.totalPages.toInt = totalPages

section Pages

variable (mobileFilter : Option Bytes) (disabledFilter : Option Bool) (pageSize : Int32)

/-- The size of the pages, as a number. -/
def entriesPerPage : Nat := (normalPageSize pageSize).toInt.toNat

theorem entriesPerPage_pos : 0 < entriesPerPage pageSize := by
  have := normalPageSize_range pageSize
  unfold entriesPerPage
  omega

/-- The division rounded up, in the numbers of the library. -/
theorem totalPages_eq (n : Nat) :
    ((n : Int) + (normalPageSize pageSize).toInt - 1) / (normalPageSize pageSize).toInt =
      (Paging.count (entriesPerPage pageSize) n : Nat) := by
  obtain ⟨hlow, -⟩ := normalPageSize_range pageSize
  obtain ⟨size, hsize⟩ := Int.eq_ofNat_of_zero_le (show 0 ≤ (normalPageSize pageSize).toInt by omega)
  rw [Paging.count, entriesPerPage, hsize, Int.toNat_natCast, Int.natCast_ediv]
  congr 1
  omega

theorem count_le (n : Nat) : Paging.count (entriesPerPage pageSize) n ≤ n := by
  have hpos := entriesPerPage_pos pageSize
  by_contra hlt
  have hpast := (Paging.lt_count_iff hpos n n).mp (Nat.not_le.mp hlt)
  exact absurd hpast (Nat.not_lt.mpr (Nat.le_mul_of_pos_right n hpos))

variable {pageSize} {page : Int32} {w : World}

/-- A request for page `k + 1` with an offset that `int` holds. -/
theorem returnsPage_of_exact (hw : w.sqlFaults = []) (hrows : w.db.users.length < 2 ^ 31) {k : Nat}
    (hpage : page.toInt = k + 1) (hoffset : k * entriesPerPage pageSize < 2 ^ 31) :
    ReturnsPage (Action.run (UserService.listUsers mobileFilter disabledFilter page pageSize) w).1
      ((Paging.page (entriesPerPage pageSize) k (listing mobileFilter disabledFilter w.db)).map
        UserEntity.cleared)
      (listing mobileFilter disabledFilter w.db).length
      (Paging.count (entriesPerPage pageSize) (listing mobileFilter disabledFilter w.db).length) := by
  have hnormal : normalPage page = page := by
    rw [normalPage, if_pos]
    rw [Int32.lt_iff_toInt_lt, Int32.toInt_zero]
    omega
  have hexact : exactOffset page pageSize = (k * entriesPerPage pageSize : Nat) := by
    have := normalPageSize_range pageSize
    rw [exactOffset, hnormal, hpage, Nat.cast_mul, entriesPerPage, Int.toNat_of_nonneg (by omega)]
    congr 1
    omega
  have hsent : (offset page pageSize).toInt = (k * entriesPerPage pageSize : Nat) := by
    rw [(offset_eq_iff page pageSize).mpr (by omega), hexact]
  have hlen : (listing mobileFilter disabledFilter w.db).length < 2 ^ 31 := by
    rw [listing, List.length_insertionSort]
    exact Nat.lt_of_le_of_lt (List.length_filter_le _ _) hrows
  have hcount := count_le pageSize (listing mobileFilter disabledFilter w.db).length
  rw [run_listUsers mobileFilter disabledFilter page pageSize hw, if_neg (by omega), hsent, totalPages_eq,
    Int.toNat_natCast]
  exact ⟨_, rfl, rfl, Int32.toInt_ofInt_of_le (by omega) (by omega),
    Int32.toInt_ofInt_of_le (by omega) (by omega)⟩

end Pages

/-- **Pagination.** Whatever the filters and the requested size, the pages 1 to `total_pages` are a
partition of the rows that pass the filters, newest first, each full but the last and none empty; the
pages behind are empty as long as their offset is in the range of `int`, and every reply has the number of
these rows. Each page may be asked for at another time, with the same table. -/
theorem pagination (db : Database) (hrows : db.users.length < 2 ^ 31) (mobileFilter : Option Bytes)
    (disabledFilter : Option Bool) (pageSize : Int32) :
    ∃ (rows : List UserEntity) (pages : List (List UserEntity)),
      rows.Perm (db.users.filter (filterOf mobileFilter disabledFilter).Matches) ∧
      rows.Pairwise UserEntity.NotAfter ∧
      pages.flatten = rows.map UserEntity.cleared ∧
      (∀ k (hk : k < pages.length), pages[k] ≠ [] ∧
        (k + 1 < pages.length → pages[k].length = entriesPerPage pageSize)) ∧
      (∀ w : World, w.db = db → w.sqlFaults = [] → ∀ (page : Int32) (k : Nat), page.toInt = k + 1 →
        (∀ hk : k < pages.length,
          ReturnsPage (Action.run (UserService.listUsers mobileFilter disabledFilter page pageSize) w).1
            pages[k] rows.length pages.length) ∧
        (pages.length ≤ k → k * entriesPerPage pageSize < 2 ^ 31 →
          ReturnsPage (Action.run (UserService.listUsers mobileFilter disabledFilter page pageSize) w).1
            [] rows.length pages.length)) := by
  have hpos := entriesPerPage_pos pageSize
  have hget : ∀ k (hk : k < ((Paging.pages (entriesPerPage pageSize)
      (listing mobileFilter disabledFilter db)).map (List.map UserEntity.cleared)).length),
      ((Paging.pages (entriesPerPage pageSize) (listing mobileFilter disabledFilter db)).map
        (List.map UserEntity.cleared))[k] =
      (Paging.page (entriesPerPage pageSize) k (listing mobileFilter disabledFilter db)).map
        UserEntity.cleared := by
    intro k hk
    simp [Paging.pages]
  refine ⟨listing mobileFilter disabledFilter db,
    (Paging.pages (entriesPerPage pageSize) (listing mobileFilter disabledFilter db)).map
      (List.map UserEntity.cleared),
    List.perm_insertionSort _ _, List.pairwise_insertionSort _ _, ?_, ?_, ?_⟩
  · rw [← List.map_flatten, Paging.flatten_pages hpos]
  · intro k hk
    rw [hget k hk]
    rw [List.length_map, Paging.length_pages] at hk
    refine ⟨fun h => Paging.page_ne_nil hpos hk (List.map_eq_nil_iff.mp h), fun hlast => ?_⟩
    rw [List.length_map, Paging.length_pages] at hlast
    rw [List.length_map, Paging.length_page_of_succ_lt hpos hlast]
  · rintro w rfl hw page k hpage
    refine ⟨fun hk => ?_, fun hk hoffset => ?_⟩
    · rw [hget k hk, List.length_map, Paging.length_pages]
      rw [List.length_map, Paging.length_pages, Paging.lt_count_iff hpos] at hk
      have hlen : (listing mobileFilter disabledFilter w.db).length ≤ w.db.users.length := by
        rw [listing, List.length_insertionSort]
        exact List.length_filter_le _ _
      exact returnsPage_of_exact mobileFilter disabledFilter hw hrows hpage (by omega)
    · rw [List.length_map, Paging.length_pages] at hk ⊢
      have hreply := returnsPage_of_exact mobileFilter disabledFilter hw hrows hpage hoffset
      rwa [Paging.page_of_count_le hpos hk] at hreply

def threeUsers : Database :=
  { Database.empty id with users :=
    [⟨1, [1], [], [], [], .user, false, 5, 5⟩, ⟨2, [2], [], [], [], .user, false, 7, 7⟩,
      ⟨3, [3], [], [], [], .user, false, 7, 7⟩] }

/-- Three users, two to a page. -/
theorem pagination_sample :
    ∃ pages : List (List UserEntity), pages.flatten.length = 3 ∧
      ∀ (page : Int32) (k : Nat) (hk : k < pages.length), page.toInt = k + 1 →
        (k + 1 < pages.length → pages[k].length = 2) ∧
          ReturnsPage (Action.run (UserService.listUsers none (some false) page 2)
            { emptyWorld 0 with db := threeUsers }).1 pages[k] 3 pages.length := by
  obtain ⟨rows, pages, hperm, -, hflatten, hpages, hreplies⟩ := pagination threeUsers (by decide) none (some false) 2
  have hrows : rows.length = 3 := hperm.length_eq.trans (by decide)
  refine ⟨pages, ?_, fun page k hk hpage => ⟨(hpages k hk).2, ?_⟩⟩
  · rw [hflatten, List.length_map, hrows]
  · have hreply := (hreplies { emptyWorld 0 with db := threeUsers } rfl rfl page k hpage).1 hk
    rwa [hrows] at hreply

end AccountService
