import AccountService.LibraryOwnership
import AccountService.ModelMySqlResult

/-! What `MySQLResult` is for: a value that holds a table and a place in it, and can be handed on. The pointers behind
it are never followed to memory that has been freed, every `MYSQL_RES` is freed once, and the cells that are read are
those of the table. -/

namespace AccountService

/-- A table, how many of its rows have been fetched, and whether the last of them is there to be read. -/
structure ResultCursor where
  table : ResultTable
  fetched : Nat
  onRow : Bool

/-- An object, with the columns that it knows by name. -/
structure ResultValue where
  cursor : Option ResultCursor := none
  names : Bytes → Option Nat := fun _ => none

structure ResultValues where
  objects : Nat → Option ResultValue := fun _ => none
  count : Nat := 0

namespace ResultValue

/-- The last column of a name. -/
def lastColumn (fields : List Bytes) (name : Bytes) : Option Nat :=
  (fields.zipIdx.reverse.find? (·.1 = name)).map Prod.snd

def ofTable (table : ResultTable) : ResultValue := ⟨some ⟨table, 0, false⟩, lastColumn table.fields⟩

def row? (v : ResultValue) : Option (List (Option Bytes)) :=
  v.cursor.bind fun c => if c.onRow then c.table.rows[c.fetched - 1]? else none

def answer (cell : Option Bytes) : MySQLResult.Getter → ResultReply
  | .isNull => .bool cell.isNone
  | .getString => .string cell
  | .getInt => .int (cell.map strtoll)
  | .getDouble => .double (cell.map (·.takeWhile (· ≠ 0)))

def get (v : ResultValue) (getter : MySQLResult.Getter) (col : Nat) : ResultReply :=
  match v.row? with
  | none => MySQLResult.noCurrentRow
  | some row => (row[col]?).elim (MySQLResult.columnOutOfRange col row.length) (answer · getter)

def getNamed (v : ResultValue) (getter : MySQLResult.Getter) (name : Bytes) : ResultReply :=
  (v.names name).elim (MySQLResult.columnNotFound name) (v.get getter)

def next (v : ResultValue) : Bool × ResultValue :=
  match v.cursor with
  | none => (false, v)
  | some c =>
      if c.fetched < c.table.rows.length then (true, { v with cursor := some ⟨c.table, c.fetched + 1, true⟩ })
      else (false, { v with cursor := some { c with onRow := false } })

end ResultValue

namespace ResultValues

variable (s : ResultValues)

def put (i : Nat) (v : Option ResultValue) : ResultValues := { s with objects := Function.update s.objects i v }

/-- What an object answers, if it is there. -/
def ask (i : Nat) (f : ResultValue → ResultReply) : ResultReply := ((s.objects i).map f).getD .nothing

def step : ResultOp → ResultReply × ResultValues
  | .construct res =>
      (.nothing, { s.put s.count (some (res.elim {} .ofTable)) with count := s.count + 1 })
  | .moveConstruct other =>
      match s.objects other with
      | none => (.nothing, s)
      | some v => (.nothing, { (s.put s.count (some v)).put other (some {}) with count := s.count + 1 })
  | .moveAssign self other left =>
      match s.objects self, s.objects other with
      | some _, some v =>
          if other = self then (.nothing, s)
          else (.nothing, (s.put self (some v)).put other (some { names := left }))
      | _, _ => (.nothing, s)
  | .next self =>
      match s.objects self with
      | none => (.nothing, s)
      | some v => (.bool v.next.1, s.put self (some v.next.2))
  | .rowCount self => (s.ask self fun v => .size ((v.cursor.map (·.table.rows.length)).getD 0), s)
  | .fieldCount self => (s.ask self fun v => .size ((v.cursor.map (·.table.fields.length)).getD 0), s)
  | .get self getter col => (s.ask self (·.get getter col), s)
  | .getNamed self getter name => (s.ask self (·.getNamed getter name), s)
  | .destroy self => (.nothing, s.put self none)

def run : List ResultOp → ResultValues → List ResultReply × ResultValues
  | [], s => ([], s)
  | op :: ops, s => ((s.step op).1 :: (run ops (s.step op).2).1, (run ops (s.step op).2).2)

end ResultValues

/-- What an object stands for, given the results in memory. -/
inductive Shows (natives : Nat → Option NativeResult) : MySQLResult → ResultValue → Prop
  | empty (lengths : Option Nat) (names : Bytes → Option Nat) :
      Shows natives ⟨none, none, lengths, 0, names⟩ ⟨none, names⟩
  | between {p : Nat} {table : ResultTable} {fetched : Nat} {array : List Nat} (lengths : Option Nat)
      (names : Bytes → Option Nat) (h : natives p = some ⟨table, fetched, array, false⟩) :
      Shows natives ⟨some p, none, lengths, table.fields.length, names⟩ ⟨some ⟨table, fetched, false⟩, names⟩
  | onRow {p : Nat} {table : ResultTable} {k : Nat} {row : List (Option Bytes)} (names : Bytes → Option Nat)
      (hrow : table.rows[k]? = some row)
      (h : natives p = some ⟨table, k + 1, row.map ResultMemory.cellLength, false⟩) :
      Shows natives ⟨some p, some ⟨p, k⟩, some p, table.fields.length, names⟩ ⟨some ⟨table, k + 1, true⟩, names⟩

theorem buildColumnMap_eq (fields : List Bytes) :
    MySQLResult.buildColumnMap fields = ResultValue.lastColumn fields := by
  have hfold : ∀ l : List (Bytes × Nat),
      l.foldl (fun (names : Bytes → Option Nat) field => Function.update names field.1 (some field.2)) (fun _ => none) =
        fun name => (l.reverse.find? (·.1 = name)).map Prod.snd := by
    intro l
    induction l using List.reverseRecOn with
    | nil => rfl
    | append_singleton l field ih =>
        funext name
        rw [List.foldl_append, ih, List.reverse_append]
        by_cases h : name = field.1
        · simp [h]
        · simp [h, Ne.symm h]
  exact hfold fields.zipIdx

section Shows

variable {natives natives' : Nat → Option NativeResult} {o : MySQLResult} {v : ResultValue} {m : ResultMemory}

theorem Shows.mono (h : Shows natives o v) (hsame : ∀ p, o.result = some p → natives' p = natives p) :
    Shows natives' o v := by
  cases h with
  | empty lengths names => exact .empty lengths names
  | between lengths names h => exact .between lengths names ((hsame _ rfl).trans h)
  | onRow names hrow h => exact .onRow names hrow ((hsame _ rfl).trans h)

theorem Shows.alive (h : Shows natives o v) {p : Nat} (hp : o.result = some p) :
    ∃ n, natives p = some n ∧ n.freed = false := by
  cases h with
  | empty => cases hp
  | between _ _ h => exact Option.some.inj hp ▸ ⟨_, h, rfl⟩
  | onRow _ _ h => exact Option.some.inj hp ▸ ⟨_, h, rfl⟩

theorem Shows.cursor (h : Shows natives o v) {p : Nat} (hp : o.result = some p) :
    ∃ n onRow, natives p = some n ∧ n.freed = false ∧ v = ⟨some ⟨n.table, n.fetched, onRow⟩, o.colNameMap⟩ ∧
      o.fieldCount = n.table.fields.length := by
  cases h with
  | empty => cases hp
  | between _ _ h => exact Option.some.inj hp ▸ ⟨_, false, h, rfl, rfl, rfl⟩
  | onRow _ _ h => exact Option.some.inj hp ▸ ⟨_, true, h, rfl, rfl, rfl⟩

theorem Shows.no_cursor (h : Shows natives o v) (hp : o.result = none) : v.cursor = none := by
  cases h with
  | empty => rfl
  | between => cases hp
  | onRow => cases hp

theorem native_ok {p : Nat} {n : NativeResult} (h : m.natives p = some n) (hfreed : n.freed = false) :
    m.native p = .ok n := by
  rw [ResultMemory.native, h]
  simp [hfreed]

/-- A cell of the row that an object points to. -/
theorem cell_ok {p k col : Nat} {n : NativeResult} {row : List (Option Bytes)} {cell : Option Bytes}
    (h : m.natives p = some n) (hfreed : n.freed = false) (hrow : n.table.rows[k]? = some row)
    (hcell : row[col]? = some cell) : m.cell ⟨p, k⟩ col = .ok cell := by
  rw [ResultMemory.cell, native_ok h hfreed]
  simp only [bind, Except.bind, hrow, Option.bind_some, hcell]
  rfl

theorem length_ok {p col : Nat} {n : NativeResult} {row : List (Option Bytes)} {cell : Option Bytes}
    (h : m.natives p = some n) (hfreed : n.freed = false) (hlengths : n.lengths = row.map ResultMemory.cellLength)
    (hcell : row[col]? = some cell) : m.length p col = .ok (ResultMemory.cellLength cell) := by
  rw [ResultMemory.length, native_ok h hfreed]
  simp only [bind, Except.bind, hlengths, List.getElem?_map, hcell, Option.map_some]
  rfl

/-- **Reading.** What an object reads is what it stands for. -/
theorem Shows.get (h : Shows m.natives o v) (getter : MySQLResult.Getter) (col : Nat) :
    o.get m getter col = .ok (v.get getter col) := by
  cases h with
  | empty lengths names => rfl
  | between lengths names h => rfl
  | @onRow p table k row names hrow h =>
      have hvalue : ResultValue.row? ⟨some ⟨table, k + 1, true⟩, names⟩ = some row := hrow
      have hlength : row.length = table.fields.length := table.shape row (List.mem_of_getElem? hrow)
      rw [ResultValue.get, hvalue, MySQLResult.get, MySQLResult.checkColumn]
      dsimp only
      by_cases hcol : table.fields.length ≤ col
      · rw [if_pos hcol, List.getElem?_eq_none (hlength ▸ hcol), ← hlength]
        rfl
      · obtain ⟨cell, hcell⟩ : ∃ cell, row[col]? = some cell :=
          ⟨_, List.getElem?_eq_getElem (hlength ▸ Nat.lt_of_not_le hcol)⟩
        rw [if_neg hcol, cell_ok h rfl hrow hcell, hcell]
        cases getter with
        | isNull => rfl
        | getInt | getDouble => cases cell <;> rfl
        | getString =>
            cases cell with
            | none => rfl
            | some text =>
                simp only [bind, Except.bind, MySQLResult.stringAt, length_ok h rfl rfl hcell]
                simp [ResultMemory.cellLength, ResultValue.answer, pure, Except.pure]

theorem Shows.getNamed (h : Shows m.natives o v) (getter : MySQLResult.Getter) (name : Bytes) :
    o.getNamed m getter name = .ok (v.getNamed getter name) := by
  have hnames : o.colNameMap = v.names := by cases h <;> rfl
  rw [MySQLResult.getNamed, ResultValue.getNamed, hnames]
  cases v.names name with
  | none => rfl
  | some col => exact h.get getter col

theorem Shows.rowCount (h : Shows m.natives o v) :
    o.rowCount m = .ok ((v.cursor.map (·.table.rows.length)).getD 0) := by
  cases h with
  | empty => rfl
  | between _ _ h =>
      rw [MySQLResult.rowCount]
      simp only [native_ok h rfl]
      rfl
  | onRow _ _ h =>
      rw [MySQLResult.rowCount]
      simp only [native_ok h rfl]
      rfl

theorem Shows.fieldCount (h : Shows m.natives o v) :
    o.fieldCount = (v.cursor.map (·.table.fields.length)).getD 0 := by
  cases h <;> rfl

end Shows

namespace ResultMemory

variable (m : ResultMemory)

/-- The result that an object holds. -/
def holds (i : Nat) : Option Nat := (m.objects i).bind (·.result)

/-- A result that has been made and not been freed. -/
def Live (p : Nat) : Prop := ∃ n, m.natives p = some n ∧ n.freed = false

/-- The memory behind some values. -/
structure Backs (s : ResultValues) : Prop where
  count : m.count = s.count
  shows : ∀ i, Option.Rel (Shows m.natives) (m.objects i) (s.objects i)
  freshObject : ∀ i, m.count ≤ i → m.objects i = none
  freshNative : ∀ p, m.made ≤ p → m.natives p = none
  owned : Ownership.Sound m.holds m.Live

variable {m} {s : ResultValues} {i j p : Nat} {o : MySQLResult}

theorem backs_empty : Backs {} {} where
  count := rfl
  shows _ := .none
  freshObject _ _ := rfl
  freshNative _ _ := rfl
  owned := Ownership.sound_empty.congr (fun _ => rfl) fun _ => ⟨fun ⟨_, h, _⟩ => (by cases h), fun h => h.elim⟩

theorem holds_eq (h : m.objects i = some o) : m.holds i = o.result := by
  rw [holds, h]
  rfl

theorem holds_update (f : Nat → Option MySQLResult) (i : Nat) (o : Option MySQLResult) (j : Nat) :
    (Function.update f i o j).bind (·.result) =
      Function.update (fun j => (f j).bind (·.result)) i (o.bind (·.result)) j := by
  by_cases h : j = i
  · rw [h, Function.update_self, Function.update_self]
  · rw [Function.update_of_ne h, Function.update_of_ne h]

theorem Backs.value (h : m.Backs s) (hi : m.objects i = some o) : ∃ v, s.objects i = some v ∧ Shows m.natives o v := by
  have hshows := h.shows i
  rw [hi] at hshows
  cases hv : s.objects i with
  | none =>
      rw [hv] at hshows
      cases hshows
  | some v =>
      rw [hv] at hshows
      cases hshows with
      | some hshows => exact ⟨v, rfl, hshows⟩

theorem Backs.no_value (h : m.Backs s) (hi : m.objects i = none) : s.objects i = none := by
  have hshows := h.shows i
  rw [hi] at hshows
  cases hv : s.objects i with
  | none => rfl
  | some v =>
      rw [hv] at hshows
      cases hshows

/-- Relations that are changed at one place. -/
theorem rel_update {natives : Nat → Option NativeResult} {f : Nat → Option MySQLResult} {g : Nat → Option ResultValue}
    {x : Option MySQLResult} {y : Option ResultValue} (hi : Option.Rel (Shows natives) x y)
    (hother : ∀ j, j ≠ i → Option.Rel (Shows natives) (f j) (g j)) (j : Nat) :
    Option.Rel (Shows natives) (Function.update f i x j) (Function.update g i y j) := by
  by_cases h : j = i
  · rw [h, Function.update_self, Function.update_self]
    exact hi
  · rw [Function.update_of_ne h, Function.update_of_ne h]
    exact hother j h

theorem rel_mono {natives natives' : Nat → Option NativeResult} {x : Option MySQLResult} {y : Option ResultValue}
    (h : Option.Rel (Shows natives) x y) (hsame : ∀ p, x.bind (·.result) = some p → natives' p = natives p) :
    Option.Rel (Shows natives') x y := by
  cases h with
  | none => exact .none
  | some h => exact .some (h.mono hsame)

/-- What an object holds is held by no other one. -/
theorem Backs.other (h : m.Backs s) (hi : m.objects i = some o) (hp : o.result = some p) (hne : j ≠ i) :
    ∀ q, (m.objects j).bind (·.result) = some q → q ≠ p := by
  rintro q hq rfl
  exact hne (h.owned.unique hq ((holds_eq hi).trans hp))

/-- An object is made. -/
theorem Backs.construct (h : m.Backs s) (table : ResultTable) :
    Backs {
      natives := Function.update m.natives m.made (some { table := table })
      made := m.made + 1
      objects := Function.update m.objects m.count (some {
        result := some m.made
        fieldCount := table.fields.length
        colNameMap := MySQLResult.buildColumnMap table.fields })
      count := m.count + 1 } { s.put s.count (some (.ofTable table)) with count := s.count + 1 } := by
  have hnew : m.natives m.made = none := h.freshNative m.made (Nat.le_refl _)
  refine ⟨congrArg (· + 1) h.count, fun j => ?_, fun j hj => ?_, fun q hq => ?_, ?_⟩
  · rw [← h.count]
    refine rel_update (.some ?_) (fun k _ => ?_) j
    · rw [buildColumnMap_eq]
      exact .between none _ (Function.update_self ..)
    refine rel_mono (h.shows k) fun q hq => Function.update_of_ne ?_ _ _
    rintro rfl
    obtain ⟨n, hn, -⟩ := h.owned.alive hq
    cases hnew.symm.trans hn
  · have hne : j ≠ m.count := (Nat.lt_of_lt_of_le (Nat.lt_succ_self _) hj).ne'
    exact (Function.update_of_ne hne _ _).trans (h.freshObject j (Nat.le_of_succ_le hj))
  · have hne : q ≠ m.made := (Nat.lt_of_lt_of_le (Nat.lt_succ_self _) hq).ne'
    exact (Function.update_of_ne hne _ _).trans (h.freshNative q (Nat.le_of_succ_le hq))
  · have hdead : ¬m.Live m.made := fun ⟨n, hn, _⟩ => by cases hnew.symm.trans hn
    have hfree : m.holds m.count = none := by rw [holds, h.freshObject m.count (Nat.le_refl _)]; rfl
    refine (h.owned.acquire hfree hdead).congr (holds_update _ _ _) fun q => ?_
    by_cases hq : q = m.made
    · rw [hq]
      exact ⟨fun _ => Or.inl rfl, fun _ => ⟨_, Function.update_self .., rfl⟩⟩
    · simp only [Live, Function.update_of_ne hq, hq, false_or]

theorem Backs.construct_none (h : m.Backs s) :
    Backs { m.put m.count (some {}) with count := m.count + 1 }
      { s.put s.count (some {}) with count := s.count + 1 } := by
  refine ⟨congrArg (· + 1) h.count, fun j => ?_, fun j hj => ?_, h.freshNative, ?_⟩
  · rw [← h.count]
    exact rel_update (.some (.empty none _)) (fun k _ => h.shows k) j
  · have hne : j ≠ m.count := (Nat.lt_of_lt_of_le (Nat.lt_succ_self _) hj).ne'
    exact (Function.update_of_ne hne _ _).trans (h.freshObject j (Nat.le_of_succ_le hj))
  · refine h.owned.congr (fun j => (holds_update _ _ _ j).trans ?_) fun _ => Iff.rfl
    have hfree : m.holds m.count = none := by rw [holds, h.freshObject m.count (Nat.le_refl _)]; rfl
    exact congrFun (Function.update_eq_self_iff.mpr hfree.symm) j

/-- An object gives up its result and goes. -/
theorem Backs.release (h : m.Backs s) (hi : m.objects i = some o) :
    ∃ m', m.freeOf o = .ok m' ∧ m'.objects = m.objects ∧ m'.count = m.count ∧ (m'.put i none).Backs (s.put i none) := by
  obtain ⟨v, hv, hshows⟩ := h.value hi
  have hholds := holds_eq hi
  have hput : ∀ j, m.count ≤ j → Function.update m.objects i none j = none := by
    intro j hj
    by_cases hne : j = i
    · rw [hne, Function.update_self]
    · rw [Function.update_of_ne hne, h.freshObject j hj]
  cases hp : o.result with
  | none =>
      refine ⟨m, by rw [freeOf, hp]; rfl, rfl, rfl, h.count, rel_update .none fun k _ => h.shows k, hput,
        h.freshNative, ?_⟩
      refine h.owned.congr (fun j => (holds_update _ _ _ j).trans ?_) fun _ => Iff.rfl
      exact congrFun (Function.update_eq_self_iff.mpr (hholds.trans hp).symm) j
  | some p =>
      obtain ⟨n, hn, hfreed⟩ := hshows.alive hp
      refine ⟨m.write p { n with freed := true }, ?_, rfl, rfl, h.count, rel_update .none fun k hne => ?_, hput,
        fun q hq => ?_, ?_⟩
      · rw [freeOf, hp]
        show m.freeResult p = _
        rw [freeResult, native_ok hn hfreed]
        rfl
      · exact rel_mono (h.shows k) fun q hq => Function.update_of_ne (h.other hi hp hne q hq) _ _
      · have hne : q ≠ p := by
          rintro rfl
          cases (h.freshNative q hq).symm.trans hn
        exact (Function.update_of_ne hne _ _).trans (h.freshNative q hq)
      · refine (h.owned.release i).congr (holds_update _ _ _) fun q => ?_
        rw [hholds, hp]
        by_cases hq : q = p
        · subst hq
          refine ⟨fun ⟨n', hn', hfreed'⟩ => ?_, fun ⟨_, hne⟩ => absurd rfl hne⟩
          cases (Function.update_self ..).symm.trans hn'
          cases hfreed'
        · have hne : some p ≠ some q := fun h => hq (Option.some.inj h).symm
          have hsame : (m.write p { n with freed := true }).natives q = m.natives q := Function.update_of_ne hq _ _
          exact ⟨fun ⟨n', hn', hfreed'⟩ => ⟨⟨n', hsame.symm.trans hn', hfreed'⟩, hne⟩,
            fun ⟨⟨n', hn', hfreed'⟩, _⟩ => ⟨n', hsame.trans hn', hfreed'⟩⟩

/-- An object takes over what another one holds. -/
theorem Backs.transfer (h : m.Backs s) (hne : j ≠ i) (hi : m.objects i = none) (hj : m.objects j = some o)
    {v : ResultValue} (hv : s.objects j = some v) (left : Bytes → Option Nat) {count : Nat} (hcount : m.count ≤ count)
    (hlt : i < count) :
    Backs { (m.put i (some o)).put j (some (.emptied left)) with count := count }
      { (s.put i (some v)).put j (some { names := left }) with count := count } := by
  obtain ⟨v', hv', hshows⟩ := h.value hj
  cases hv.symm.trans hv'
  refine ⟨rfl, rel_update (.some (.empty none left)) fun k _ => ?_, fun k hk => ?_, h.freshNative, ?_⟩
  · exact rel_update (.some hshows) (fun k _ => h.shows k) k
  · have hki : k ≠ i := (Nat.lt_of_lt_of_le hlt hk).ne'
    have hkj : k ≠ j := by
      rintro rfl
      cases (h.freshObject k (Nat.le_trans hcount hk)).symm.trans hj
    exact ((Function.update_of_ne hkj _ _).trans (Function.update_of_ne hki _ _)).trans
      (h.freshObject k (Nat.le_trans hcount hk))
  · have hfree : m.holds i = none := by rw [holds, hi]; rfl
    refine (h.owned.transfer hne.symm hfree).congr (fun k => (holds_update _ _ _ k).trans ?_) fun _ => Iff.rfl
    have hfirst : (fun k => (Function.update m.objects i (some o) k).bind (·.result)) =
        Function.update m.holds i (m.holds j) := by
      rw [holds_eq hj]
      exact funext (holds_update _ _ _)
    exact congrArg (fun f => Function.update f j none k) hfirst

/-- An object changes the result that it holds, and keeps it. -/
theorem Backs.modify (h : m.Backs s) (hi : m.objects i = some o) (hp : o.result = some p) {n : NativeResult}
    (hfreed : n.freed = false) {o' : MySQLResult} {v : ResultValue} (hp' : o'.result = some p)
    (hshows : Shows (m.write p n).natives o' v) :
    ((m.write p n).put i (some o')).Backs (s.put i (some v)) := by
  obtain ⟨_, _, hold⟩ := h.value hi
  obtain ⟨n', hn', hfreed'⟩ := hold.alive hp
  refine ⟨h.count, rel_update (.some hshows) fun k hne => ?_, fun k hk => ?_, fun q hq => ?_, ?_⟩
  · exact rel_mono (h.shows k) fun q hq => Function.update_of_ne (h.other hi hp hne q hq) _ _
  · have hne : k ≠ i := by
      rintro rfl
      cases (h.freshObject k hk).symm.trans hi
    exact (Function.update_of_ne hne _ _).trans (h.freshObject k hk)
  · have hne : q ≠ p := by
      rintro rfl
      cases (h.freshNative q hq).symm.trans hn'
    exact (Function.update_of_ne hne _ _).trans (h.freshNative q hq)
  · refine h.owned.congr (fun k => (holds_update _ _ _ k).trans ?_) fun q => ?_
    · refine congrFun (Function.update_eq_self_iff.mpr ?_) k
      exact hp'.trans ((holds_eq hi).trans hp).symm
    · by_cases hq : q = p
      · rw [hq]
        exact ⟨fun _ => ⟨n', hn', hfreed'⟩, fun _ => ⟨n, Function.update_self .., hfreed⟩⟩
      · have hsame : (m.write p n).natives q = m.natives q := Function.update_of_ne hq _ _
        exact ⟨fun ⟨x, hx, hx'⟩ => ⟨x, hsame.symm.trans hx, hx'⟩, fun ⟨x, hx, hx'⟩ => ⟨x, hsame.trans hx, hx'⟩⟩

/-- `Next` behind the last row. -/
theorem next_end {n : NativeResult} (hp : o.result = some p) (hn : m.natives p = some n) (hfreed : n.freed = false)
    (hend : n.table.rows.length ≤ n.fetched) : o.next m = .ok (false, { o with currentRow := none }, m) := by
  have hfetch : m.fetchRow p = .ok (none, m) := by
    rw [fetchRow, native_ok hn hfreed]
    simp only [bind, Except.bind, if_neg (Nat.not_lt_of_le hend)]
    rfl
  rw [MySQLResult.next, hp]
  simp only [hfetch, bind, Except.bind]
  rfl

/-- `Next` in front of a row. -/
theorem next_row {n : NativeResult} {row : List (Option Bytes)} (hp : o.result = some p) (hn : m.natives p = some n)
    (hfreed : n.freed = false) (hrow : n.table.rows[n.fetched]? = some row) :
    o.next m = .ok (true, { o with currentRow := some ⟨p, n.fetched⟩, lengths := some p },
      m.write p { n with fetched := n.fetched + 1, lengths := row.map cellLength }) := by
  have hlt : n.fetched < n.table.rows.length := (List.getElem?_eq_some_iff.mp hrow).1
  have hfetch : m.fetchRow p = .ok (some ⟨p, n.fetched⟩, m.write p { n with fetched := n.fetched + 1 }) := by
    rw [fetchRow, native_ok hn hfreed]
    simp only [bind, Except.bind, if_pos hlt]
    rfl
  have hlengths : (m.write p { n with fetched := n.fetched + 1 }).fetchLengths p =
      .ok (m.write p { n with fetched := n.fetched + 1, lengths := row.map cellLength }) := by
    rw [fetchLengths, native_ok (n := { n with fetched := n.fetched + 1 }) (Function.update_self ..) hfreed]
    simp only [bind, Except.bind, Nat.add_sub_cancel, hrow]
    rw [write, write, write, Function.update_idem]
    rfl
  rw [MySQLResult.next, hp]
  simp only [hfetch, hlengths, bind, Except.bind]
  rfl

theorem Backs.next (h : m.Backs s) (hi : m.objects i = some o) {v : ResultValue} (hv : s.objects i = some v) :
    ∃ o' m', o.next m = .ok (v.next.1, o', m') ∧ (m'.put i (some o')).Backs (s.put i (some v.next.2)) := by
  obtain ⟨v', hv', hshows⟩ := h.value hi
  cases hv.symm.trans hv'
  cases hp : o.result with
  | none =>
      have hvalue : v.next = (false, v) := by
        rw [ResultValue.next, hshows.no_cursor hp]
      refine ⟨o, m, by rw [MySQLResult.next, hp, hvalue]; rfl, ?_⟩
      rw [hvalue, put, ← hi, Function.update_eq_self, ResultValues.put, ← hv, Function.update_eq_self]
      exact h
  | some p =>
      obtain ⟨n, onRow, hn, hfreed, rfl, hfields⟩ := hshows.cursor hp
      obtain ⟨result, currentRow, lengths, fieldCount, names⟩ := o
      obtain ⟨table, fetched, array, freed⟩ := n
      cases hp
      cases hfreed
      cases hfields
      cases hrow : table.rows[fetched]? with
      | none =>
          have hend : table.rows.length ≤ fetched := List.getElem?_eq_none_iff.mp hrow
          have hvalue : ResultValue.next ⟨some ⟨table, fetched, onRow⟩, names⟩ =
              (false, ⟨some ⟨table, fetched, false⟩, names⟩) := if_neg (Nat.not_lt_of_le hend)
          have hwrite : m.write p ⟨table, fetched, array, false⟩ = m := by
            rw [write, ← hn, Function.update_eq_self]
          have hshows' : Shows (m.write p ⟨table, fetched, array, false⟩).natives _ _ :=
            .between lengths names (Function.update_self ..)
          have hmodify := h.modify hi rfl rfl rfl hshows'
          rw [hwrite] at hmodify
          rw [hvalue]
          exact ⟨_, m, next_end rfl hn rfl hend, hmodify⟩
      | some row =>
          have hlt : fetched < table.rows.length := (List.getElem?_eq_some_iff.mp hrow).1
          have hvalue : ResultValue.next ⟨some ⟨table, fetched, onRow⟩, names⟩ =
              (true, ⟨some ⟨table, fetched + 1, true⟩, names⟩) := if_pos hlt
          have hshows' : Shows (m.write p ⟨table, fetched + 1, row.map cellLength, false⟩).natives _ _ :=
            .onRow names hrow (Function.update_self ..)
          rw [hvalue]
          exact ⟨_, _, next_row rfl hn rfl hrow, h.modify hi rfl rfl rfl hshows'⟩

/-- **One operation.** It is never undefined, and it does to the values what it says. -/
theorem Backs.step (h : m.Backs s) (op : ResultOp) :
    ∃ m', m.step op = .ok ((s.step op).1, m') ∧ m'.Backs (s.step op).2 := by
  cases op with
  | construct res =>
      cases res with
      | none => exact ⟨_, rfl, h.construct_none⟩
      | some table => exact ⟨_, rfl, h.construct table⟩
  | moveConstruct other =>
      cases hother : m.objects other with
      | none =>
          refine ⟨m, ?_, ?_⟩
          all_goals simp only [ResultMemory.step, ResultValues.step, hother, h.no_value hother]
          · rfl
          · exact h
      | some o =>
          obtain ⟨v, hv, -⟩ := h.value hother
          have hfree : m.objects m.count = none := h.freshObject m.count (Nat.le_refl _)
          have hne : other ≠ m.count := by
            rintro rfl
            cases hfree.symm.trans hother
          simp only [ResultMemory.step, ResultValues.step, hother, hv]
          refine ⟨_, rfl, ?_⟩
          rw [← h.count]
          exact h.transfer hne hfree hother hv (fun _ => none) (Nat.le_succ _) (Nat.lt_succ_self _)
  | moveAssign self other left =>
      cases hself : m.objects self with
      | none =>
          simp only [ResultMemory.step, ResultValues.step, hself, h.no_value hself]
          exact ⟨m, rfl, h⟩
      | some o =>
          obtain ⟨v, hv, -⟩ := h.value hself
          cases hother : m.objects other with
          | none =>
              simp only [ResultMemory.step, ResultValues.step, hself, hv, hother, h.no_value hother]
              exact ⟨m, rfl, h⟩
          | some o' =>
              obtain ⟨v', hv', -⟩ := h.value hother
              simp only [ResultMemory.step, ResultValues.step, hself, hv, hother, hv']
              by_cases hsame : other = self
              · rw [if_pos hsame, if_pos hsame]
                exact ⟨m, rfl, h⟩
              · rw [if_neg hsame, if_neg hsame]
                obtain ⟨m', hfree, hobjects, hcount, hbacks⟩ := h.release hself
                rw [hfree]
                refine ⟨_, rfl, ?_⟩
                have hother' : (m'.put self none).objects other = some o' := by
                  rw [← hother, ← hobjects]
                  exact Function.update_of_ne hsame _ _
                have hvalue : (s.put self none).objects other = some v' := by
                  rw [← hv']
                  exact Function.update_of_ne hsame _ _
                have hlt : self < m'.count := by
                  rw [hcount]
                  by_contra hle
                  cases (h.freshObject self (Nat.le_of_not_lt hle)).symm.trans hself
                have htransfer := hbacks.transfer hsame (Function.update_self ..) hother' hvalue left
                  (Nat.le_refl _) hlt
                simp only [put, ResultValues.put, Function.update_idem] at htransfer ⊢
                rw [← hcount.trans h.count]
                exact htransfer
  | next self =>
      cases hself : m.objects self with
      | none =>
          simp only [ResultMemory.step, ResultValues.step, hself, h.no_value hself]
          exact ⟨m, rfl, h⟩
      | some o =>
          obtain ⟨v, hv, -⟩ := h.value hself
          obtain ⟨o', m', hnext, hbacks⟩ := h.next hself hv
          simp only [ResultMemory.step, ResultValues.step, hself, hv, hnext]
          exact ⟨_, rfl, hbacks⟩
  | rowCount self =>
      cases hself : m.objects self with
      | none =>
          simp only [ResultMemory.step, ResultValues.step, ResultValues.ask, hself, h.no_value hself]
          exact ⟨m, rfl, h⟩
      | some o =>
          obtain ⟨v, hv, hshows⟩ := h.value hself
          simp only [ResultMemory.step, ResultValues.step, ResultValues.ask, hself, hv, hshows.rowCount]
          exact ⟨m, rfl, h⟩
  | fieldCount self =>
      cases hself : m.objects self with
      | none =>
          simp only [ResultMemory.step, ResultValues.step, ResultValues.ask, hself, h.no_value hself]
          exact ⟨m, rfl, h⟩
      | some o =>
          obtain ⟨v, hv, hshows⟩ := h.value hself
          simp only [ResultMemory.step, ResultValues.step, ResultValues.ask, hself, hv, hshows.fieldCount]
          exact ⟨m, rfl, h⟩
  | get self getter col =>
      cases hself : m.objects self with
      | none =>
          simp only [ResultMemory.step, ResultValues.step, ResultValues.ask, hself, h.no_value hself]
          exact ⟨m, rfl, h⟩
      | some o =>
          obtain ⟨v, hv, hshows⟩ := h.value hself
          simp only [ResultMemory.step, ResultValues.step, ResultValues.ask, hself, hv, hshows.get]
          exact ⟨m, rfl, h⟩
  | getNamed self getter name =>
      cases hself : m.objects self with
      | none =>
          simp only [ResultMemory.step, ResultValues.step, ResultValues.ask, hself, h.no_value hself]
          exact ⟨m, rfl, h⟩
      | some o =>
          obtain ⟨v, hv, hshows⟩ := h.value hself
          simp only [ResultMemory.step, ResultValues.step, ResultValues.ask, hself, hv, hshows.getNamed]
          exact ⟨m, rfl, h⟩
  | destroy self =>
      cases hself : m.objects self with
      | none =>
          have hput : s.put self none = s := by
            rw [ResultValues.put, ← h.no_value hself, Function.update_eq_self]
          simp only [ResultMemory.step, ResultValues.step, hself, hput]
          exact ⟨m, rfl, h⟩
      | some o =>
          obtain ⟨m', hfree, -, -, hbacks⟩ := h.release hself
          simp only [ResultMemory.step, ResultValues.step, hself, hfree]
          exact ⟨_, rfl, hbacks⟩

theorem Backs.run (h : m.Backs s) (ops : List ResultOp) :
    ∃ m', ResultMemory.run ops m = .ok ((ResultValues.run ops s).1, m') ∧ m'.Backs (ResultValues.run ops s).2 := by
  induction ops generalizing m s with
  | nil => exact ⟨m, rfl, h⟩
  | cons op ops ih =>
      obtain ⟨m', hstep, hbacks⟩ := h.step op
      obtain ⟨m'', hrun, hbacks'⟩ := ih hbacks
      refine ⟨m'', ?_, hbacks'⟩
      rw [ResultMemory.run, hstep]
      simp only [bind, Except.bind, hrun]
      rfl

/-- **Results are values.** Whatever a program does with its results, nothing is undefined; every call returns or
throws what the values say; no `MYSQL_RES` is held by two objects, and one is freed, once, when the object that was the
last to hold it is gone. -/
theorem results_refine (ops : List ResultOp) :
    ∃ m, ResultMemory.run ops {} = .ok ((ResultValues.run ops {}).1, m) ∧
      (∀ i, m.objects i = none ↔ (ResultValues.run ops {}).2.objects i = none) ∧
      (∀ i j p, m.holds i = some p → m.holds j = some p → i = j) ∧
      ∀ p n, m.natives p = some n → (n.freed = true ↔ ∀ i, m.holds i ≠ some p) := by
  obtain ⟨m, hrun, hbacks⟩ := backs_empty.run ops
  refine ⟨m, hrun, fun i => ⟨hbacks.no_value, fun hnone => ?_⟩, fun i j p hi hj => hbacks.owned.unique hi hj,
    fun p n hn => ⟨fun hfreed i hi => ?_, fun hfree => ?_⟩⟩
  · cases hi : m.objects i with
    | none => rfl
    | some o =>
        obtain ⟨v, hv, -⟩ := hbacks.value hi
        cases hnone.symm.trans hv
  · obtain ⟨n', hn', hlive⟩ := hbacks.owned.alive hi
    cases hn.symm.trans hn'
    exact Bool.noConfusion (hlive.symm.trans hfreed)
  · by_contra hlive
    obtain ⟨i, hi⟩ := hbacks.owned.covered ⟨n, hn, by simpa using hlive⟩
    exact hfree i hi

/-- A result is moved before it is read; the object that it came from has nothing to free. -/
example :
    (ResultMemory.run [.construct (some ⟨[ascii "id"], [[some (ascii "7")]], by simp⟩), .moveConstruct 0, .next 1,
      .getNamed 1 .getInt (ascii "id"), .get 0 .getInt 0, .next 1, .destroy 0, .destroy 1] {}).map Prod.fst =
    .ok [.nothing, .nothing, .bool true, .int (some 7), MySQLResult.noCurrentRow, .bool false, .nothing, .nothing] := rfl

end ResultMemory
end AccountService
