import AccountService.ModelDiscovery

/-! The cached instances of a subscribed service. The list is read by one request and the watch is armed by
another one, and several refreshes may be on their way at the same time: a change that falls into the gap is
not noticed, and a list that was read before a change may be stored after one that was read later. -/

namespace AccountService

open Interaction

section Statement

variable {α : Type} (decode : Bytes → Option α)

/-- The valid instances of a list of nodes. -/
def instancesOf (children : List (Bytes × Bytes)) : List α :=
  children.flatMap fun c => readInstance decode (c.2.take maxDataSize)

/-- The service is subscribed, no event is undelivered and nothing is running. -/
def Session.Quiescent (s : Session α) : Prop :=
  s.watched = true ∧ s.undelivered = 0 ∧ ∀ t ∈ s.tasks, t.running = false

/-- In a quiescent state the cache holds the valid instances of the current children. -/
def Session.Consistent (s : Session α) : Prop := s.Quiescent → s.cache = some (instancesOf decode s.children)

/-- Nothing is subscribed or running. -/
def Session.Idle (s : Session α) : Prop := s.watched = false ∧ ∀ t ∈ s.tasks, t.running = false

/-- A refresh is still going to read the children. -/
def Session.Due (s : Session α) : Prop :=
  0 < s.undelivered ∨ ∃ t ∈ s.tasks, t.phase = .before ∧ t.running = true

/-- A refresh has read the current children and has still to store its list. -/
def Session.UpToDate (s : Session α) : Prop := ∃ t ∈ s.tasks, t.phase = .holding s.version

/-- A change at this moment will be seen. -/
def Session.Noticed (s : Session α) : Prop := s.armed = true ∨ s.Due ∨ s.Idle

/-- Task `i` stores its list next. -/
def Session.storesNext (s : Session α) (i : Nat) : Bool :=
  match s.tasks[i]? with
  | some ⟨_, _, .call (.storeCache _) _⟩ => true
  | _ => false

/-- The condition on a move: a change is made when it will be seen, and a list is stored when it is up to
date or a later one will be stored after it. -/
def DiscoveryMove.Safe (s : Session α) : DiscoveryMove → Prop
  | .createNode child _ => s.present = true → child ∉ s.children.map Prod.fst → s.Noticed
  | .deleteNode child => child ∈ s.children.map Prod.fst → s.Noticed
  | .advance i => s.storesNext i = true → s.Due ∨ s.UpToDate
  | .subscribe | .deliver => True

/-- Every move of a sequence is safe where it is made. -/
def SafeMoves : List DiscoveryMove → Session α → Prop
  | [], _ => True
  | m :: rest, s => m.Safe s ∧ SafeMoves rest (m.step decode s)

instance (s : Session α) : Decidable s.Due := by
  unfold Session.Due
  infer_instance

instance (s : Session α) : Decidable s.UpToDate := by
  unfold Session.UpToDate
  infer_instance

instance (s : Session α) : Decidable s.Noticed := by
  unfold Session.Noticed Session.Idle
  infer_instance

instance (s : Session α) (m : DiscoveryMove) : Decidable (m.Safe s) :=
  match m with
  | .createNode child _ =>
      decidable_of_iff (s.present = true → ¬(s.children.map Prod.fst).contains child = true → s.Noticed)
        (by simp [DiscoveryMove.Safe])
  | .deleteNode child =>
      decidable_of_iff ((s.children.map Prod.fst).contains child = true → s.Noticed) (by simp [DiscoveryMove.Safe])
  | .advance _ => by unfold DiscoveryMove.Safe; infer_instance
  | .subscribe | .deliver => .isTrue trivial

instance decidableSafeMoves : ∀ moves (s : Session α), Decidable (SafeMoves decode moves s)
  | [], _ => .isTrue trivial
  | _ :: rest, _ => @instDecidableAnd _ _ _ (decidableSafeMoves rest _)

end Statement

section Tasks

variable {α : Type} (decode : Bytes → Option α)

/-- The rest of a refresh that has still to read the nodes `todo`. -/
def collectThen (instances : List α) (todo : List Bytes) (tail : Program (Zk α) Unit) : Program (Zk α) Unit :=
  collectInstances decode instances todo >>= fun all => .call (.storeCache all) fun _ => tail

theorem refreshInstances_then (tail : Program (Zk α) Unit) :
    (refreshInstances decode >>= fun _ => tail) =
      .call .getChildren fun children => collectThen decode [] children tail := by
  rw [refreshInstances, Program.call_bind]
  refine congrArg _ (funext fun children => ?_)
  rw [Program.bind_assoc]
  rfl

/-- What a task does after it has stored its list. -/
def Finishing (s : Session α) (p : Program (Zk α) Unit) : Prop :=
  p = watchChildren ∨ p = resetWatch ∨ (s.watched = true ∧ p = .call .wgetChildren fun _ => pure ()) ∨
    p = pure ()

/-- Where a task is. While the children have not changed since a task has read them, its list is that of the
nodes before those it has still to read. -/
inductive TaskStage (s : Session α) (t : Task α) : Prop
  | asking (hhandler : t.handler = true) (hphase : t.phase = .before) (hp : t.program = handleChildEvent decode)
  | reading (tail : Program (Zk α) Unit) (htail : tail = watchChildren ∨ tail = resetWatch)
      (hphase : t.phase = .before) (hp : t.program = refreshInstances decode >>= fun _ => tail)
  | collecting (tail : Program (Zk α) Unit) (htail : tail = watchChildren ∨ tail = resetWatch) (version : Nat)
      (hphase : t.phase = .holding version) (hversion : version ≤ s.version) (instances : List α)
      (todo : List Bytes) (hp : t.program = collectThen decode instances todo tail)
      (hcurrent : version = s.version → ∃ first rest, s.children = first ++ rest ∧
        todo = rest.map Prod.fst ∧ instances = instancesOf decode first)
  | finishing (hphase : t.phase = .written) (hp : Finishing s t.program)

/-- The invariant. -/
structure DiscoveryInv (s : Session α) : Prop where
  names : (s.children.map Prod.fst).Nodup
  staged : ∀ t ∈ s.tasks, TaskStage decode s t
  watched : s.armed = true ∨ 0 < s.undelivered ∨ (∃ t ∈ s.tasks, t.handler = true) → s.watched = true
  covered : s.Idle ∨ s.cache = some (instancesOf decode s.children) ∨ s.Due ∨ s.UpToDate

end Tasks

section Step

variable {α : Type} {decode : Bytes → Option α} {s : Session α}

theorem TaskStage.later {s' : Session α} {t : Task α} (h : TaskStage decode s t)
    (hwatched : s.watched = true → s'.watched = true) (hversion : s.version ≤ s'.version)
    (hchildren : s'.version = s.version → s'.children = s.children) : TaskStage decode s' t := by
  cases h with
  | asking hhandler hphase hp => exact .asking hhandler hphase hp
  | reading tail htail hphase hp => exact .reading tail htail hphase hp
  | collecting tail htail version hphase hle instances todo hp hcurrent =>
      refine .collecting tail htail version hphase (hle.trans hversion) instances todo hp fun hv => ?_
      have hsame : s'.version = s.version := le_antisymm (hv ▸ hle) hversion
      rw [hchildren hsame]
      exact hcurrent (hv.trans hsame)
  | finishing hphase hp =>
      refine .finishing hphase ?_
      rcases hp with hp | hp | ⟨hw, hp⟩ | hp
      · exact Or.inl hp
      · exact Or.inr (Or.inl hp)
      · exact Or.inr (Or.inr (Or.inl ⟨hwatched hw, hp⟩))
      · exact Or.inr (Or.inr (Or.inr hp))

/-- The children change at a moment when it will be seen. -/
theorem DiscoveryInv.change (h : DiscoveryInv decode s) (hnoticed : s.Noticed) {children : List (Bytes × Bytes)}
    (hnames : (children.map Prod.fst).Nodup) : DiscoveryInv decode (s.change children) := by
  have hkept : 0 < s.undelivered → 0 < (s.change children).undelivered := by
    intro hpos
    simp only [Session.change]
    split <;> omega
  refine ⟨hnames, ?_, ?_, ?_⟩
  · intro t ht
    refine (h.staged t ht).later id (Nat.le_succ _) fun hsame => ?_
    exact absurd hsame (Nat.succ_ne_self _)
  · rintro (harmed | hpos | hhandler)
    · cases harmed
    · refine h.watched ?_
      simp only [Session.change] at hpos
      split at hpos
      · exact Or.inl ‹_›
      · exact Or.inr (Or.inl hpos)
    · exact h.watched (Or.inr (Or.inr hhandler))
  · rcases hnoticed with harmed | (hpos | hbefore) | hidle
    · refine Or.inr (Or.inr (Or.inl (Or.inl ?_)))
      simp [Session.change, harmed]
    · exact Or.inr (Or.inr (Or.inl (Or.inl (hkept hpos))))
    · exact Or.inr (Or.inr (Or.inl (Or.inr hbefore)))
    · exact Or.inl hidle

/-- A new task is going to read the children. -/
theorem DiscoveryInv.start (h : DiscoveryInv decode s) {t : Task α} {undelivered : Nat}
    (ht : TaskStage decode s t) (hphase : t.phase = .before) (hrunning : t.running = true)
    (hevents : undelivered ≤ s.undelivered) (hhandler : t.handler = true → s.watched = true) :
    DiscoveryInv decode { s with undelivered := undelivered, tasks := s.tasks ++ [t] } := by
  refine ⟨h.names, ?_, ?_, Or.inr (Or.inr (Or.inl (Or.inr ⟨t, by simp, hphase, hrunning⟩)))⟩
  · intro t' ht'
    rcases List.mem_append.mp ht' with ht' | ht'
    · exact (h.staged t' ht').later id le_rfl fun _ => rfl
    · rw [List.mem_singleton.mp ht']
      exact ht.later id le_rfl fun _ => rfl
  · rintro (harmed | hpos | ⟨t', ht', hflag⟩)
    · exact h.watched (Or.inl harmed)
    · exact h.watched (Or.inr (Or.inl (hpos.trans_le hevents)))
    · rcases List.mem_append.mp ht' with ht' | ht'
      · exact h.watched (Or.inr (Or.inr ⟨t', ht', hflag⟩))
      · rw [List.mem_singleton.mp ht'] at hflag
        exact hhandler hflag

/-- A task that is not task `i` is still there after a step of task `i`. -/
theorem mem_set_of_ne {tasks : List (Task α)} {i : Nat} {t t' u : Task α} (hi : tasks[i]? = some t)
    (hu : u ∈ tasks) (hne : u ≠ t) : u ∈ tasks.set i t' := by
  obtain ⟨j, hj⟩ := List.mem_iff_getElem?.mp hu
  have hij : i ≠ j := by
    rintro rfl
    rw [hi] at hj
    exact hne (Option.some.inj hj).symm
  exact List.mem_of_getElem? ((List.getElem?_set_ne hij).trans hj)

/-- What a step of a task has to show. -/
theorem DiscoveryInv.advanced (h : DiscoveryInv decode s) {i : Nat} {t t' : Task α} {s' : Session α}
    (hi : s.tasks[i]? = some t) (htasks : s'.tasks = s.tasks.set i t') (hchildren : s'.children = s.children)
    (hversion : s'.version = s.version) (hevents : s'.undelivered = s.undelivered)
    (hkept : s.watched = true → s'.watched = true) (harmed : s'.armed = true → s'.watched = true)
    (hhandler : t'.handler = t.handler) (hstage : TaskStage decode s' t')
    (hcovered : s'.cache = some (instancesOf decode s'.children) ∨ s'.Due ∨ s'.UpToDate) :
    DiscoveryInv decode s' := by
  refine ⟨by rw [hchildren]; exact h.names, ?_, ?_, Or.inr hcovered⟩
  · intro u hu
    rw [htasks] at hu
    rcases List.mem_or_eq_of_mem_set hu with hu | rfl
    · exact (h.staged u hu).later hkept hversion.ge fun _ => hchildren
    · exact hstage
  · rintro (ha | hpos | ⟨u, hu, hflag⟩)
    · exact harmed ha
    · rw [hevents] at hpos
      exact hkept (h.watched (Or.inr (Or.inl hpos)))
    · rw [htasks] at hu
      refine hkept (h.watched (Or.inr (Or.inr ?_)))
      rcases List.mem_or_eq_of_mem_set hu with hu | rfl
      · exact ⟨u, hu, hflag⟩
      · exact ⟨t, List.mem_of_getElem? hi, hhandler ▸ hflag⟩

/-- A step of task `i` leaves a refresh that others owe. -/
theorem Due.set {i : Nat} {t t' : Task α} {s' : Session α} (hdue : s.Due) (hi : s.tasks[i]? = some t)
    (hphase : t.phase ≠ .before) (htasks : s'.tasks = s.tasks.set i t')
    (hevents : s'.undelivered = s.undelivered) : s'.Due := by
  rcases hdue with hpos | ⟨u, hu, hbefore, hrunning⟩
  · exact Or.inl (hevents ▸ hpos)
  · refine Or.inr ⟨u, ?_, hbefore, hrunning⟩
    rw [htasks]
    refine mem_set_of_ne hi hu ?_
    rintro rfl
    exact hphase hbefore

theorem UpToDate.set {i : Nat} {t t' : Task α} {s' : Session α} (hcurrent : s.UpToDate)
    (hi : s.tasks[i]? = some t) (hphase : t.phase = .holding s.version → t'.phase = .holding s.version)
    (htasks : s'.tasks = s.tasks.set i t') (hversion : s'.version = s.version) : s'.UpToDate := by
  obtain ⟨u, hu, hholding⟩ := hcurrent
  rw [Session.UpToDate, htasks, hversion]
  by_cases hsame : u = t
  · obtain ⟨hlt, -⟩ := List.getElem?_eq_some_iff.mp hi
    subst hsame
    exact ⟨t', List.mem_set hlt t', hphase hholding⟩
  · exact ⟨u, mem_set_of_ne hi hu hsame, hholding⟩

/-- A running task keeps the state from being idle. -/
theorem DiscoveryInv.busy (h : DiscoveryInv decode s) {i : Nat} {t : Task α} (hi : s.tasks[i]? = some t)
    (hrunning : t.running = true) :
    s.cache = some (instancesOf decode s.children) ∨ s.Due ∨ s.UpToDate := by
  refine h.covered.resolve_left fun hidle => ?_
  rw [hidle.2 t (List.mem_of_getElem? hi)] at hrunning
  cases hrunning

theorem lookup_of_nodup {children first rest : List (Bytes × Bytes)} {child data : Bytes}
    (hnames : (children.map Prod.fst).Nodup) (hsplit : children = first ++ (child, data) :: rest) :
    children.lookup child = some data := by
  subst hsplit
  induction first with
  | nil => simp
  | cons c first ih =>
      obtain ⟨name, value⟩ := c
      simp only [List.cons_append, List.map_cons, List.nodup_cons] at hnames
      have hne : child ≠ name := by
        rintro rfl
        exact hnames.1 (by simp)
      have hbeq : (child == name) = false := by simpa using hne
      rw [List.cons_append, List.lookup_cons, hbeq]
      exact ih hnames.2

/-- The children are read. -/
theorem DiscoveryInv.readChildren (h : DiscoveryInv decode s) {i : Nat} {handler : Bool} {phase : Phase}
    {tail : Program (Zk α) Unit} (htail : tail = watchChildren ∨ tail = resetWatch)
    (hi : s.tasks[i]? = some ⟨handler, phase, .call .getChildren fun children =>
      collectThen decode [] children tail⟩) : DiscoveryInv decode (s.advance i) := by
  obtain ⟨hlt, -⟩ := List.getElem?_eq_some_iff.mp hi
  simp only [Session.advance, hi]
  refine h.advanced hi rfl rfl rfl rfl id (fun ha => h.watched (Or.inl ha)) rfl ?_ ?_
  · exact .collecting tail htail s.version rfl le_rfl [] _ rfl
      fun _ => ⟨[], s.children, rfl, rfl, by simp [instancesOf]⟩
  · exact Or.inr (Or.inr ⟨_, List.mem_set hlt _, rfl⟩)

/-- The data of a node is read. -/
theorem DiscoveryInv.readData (h : DiscoveryInv decode s) {i version : Nat} {handler : Bool}
    {tail : Program (Zk α) Unit} (htail : tail = watchChildren ∨ tail = resetWatch)
    (hversion : version ≤ s.version) {instances : List α} {child : Bytes} {todo : List Bytes}
    (hi : s.tasks[i]? = some ⟨handler, .holding version, collectThen decode instances (child :: todo) tail⟩)
    (hcurrent : version = s.version → ∃ first rest, s.children = first ++ rest ∧
      child :: todo = rest.map Prod.fst ∧ instances = instancesOf decode first) :
    DiscoveryInv decode (s.advance i) := by
  have hcovered := h.busy hi rfl
  have hcall : collectThen decode instances (child :: todo) tail = .call (.getData child) fun data =>
    collectThen decode (instances ++ readInstance decode data) todo tail := rfl
  rw [hcall] at hi
  simp only [Session.advance, hi]
  refine h.advanced hi rfl rfl rfl rfl id (fun ha => h.watched (Or.inl ha)) rfl ?_ ?_
  · refine .collecting tail htail version rfl hversion _ todo rfl fun hv => ?_
    obtain ⟨first, rest, hsplit, hnames, hlist⟩ := hcurrent hv
    cases rest with
    | nil => cases hnames
    | cons c rest =>
        obtain ⟨name, data⟩ := c
        rw [List.map_cons, List.cons.injEq] at hnames
        obtain ⟨rfl, htodo⟩ := hnames
        refine ⟨first ++ [(child, data)], rest, by simp [Session.effect, hsplit], htodo, ?_⟩
        simp only [Session.reply, lookup_of_nodup h.names hsplit, Option.getD_some]
        simp [instancesOf, hlist]
  · rcases hcovered with hfresh | hdue | hholding
    · exact Or.inl hfresh
    · exact Or.inr (Or.inl (Due.set hdue hi (by simp) rfl rfl))
    · refine Or.inr (Or.inr (UpToDate.set hholding hi ?_ rfl rfl))
      exact id

/-- The list is stored. -/
theorem DiscoveryInv.stored (h : DiscoveryInv decode s) {i version : Nat} {handler : Bool}
    {tail : Program (Zk α) Unit} (htail : tail = watchChildren ∨ tail = resetWatch) {instances : List α}
    (hi : s.tasks[i]? = some ⟨handler, .holding version, collectThen decode instances [] tail⟩)
    (hcurrent : version = s.version → ∃ first rest, s.children = first ++ rest ∧
      [] = rest.map Prod.fst ∧ instances = instancesOf decode first)
    (hsafe : s.Due ∨ s.UpToDate) : DiscoveryInv decode (s.advance i) := by
  have hcall : collectThen decode instances [] tail = .call (.storeCache instances) fun _ => tail := rfl
  rw [hcall] at hi
  simp only [Session.advance, hi]
  refine h.advanced hi rfl rfl rfl rfl id (fun ha => h.watched (Or.inl ha)) rfl ?_ ?_
  · refine .finishing rfl ?_
    rcases htail with rfl | rfl
    · exact Or.inl rfl
    · exact Or.inr (Or.inl rfl)
  · by_cases hv : version = s.version
    · obtain ⟨first, rest, hsplit, hnames, rfl⟩ := hcurrent hv
      rw [List.map_eq_nil_iff.mp hnames.symm, List.append_nil] at hsplit
      refine Or.inl ?_
      simp only [Session.effect, hsplit]
    · rcases hsafe with hdue | hholding
      · exact Or.inr (Or.inl (Due.set hdue hi (by simp) rfl rfl))
      · exact Or.inr (Or.inr (UpToDate.set hholding hi (fun hp => absurd (Phase.holding.inj hp) hv) rfl rfl))

/-- A step after the list is stored: the watch is registered, tested or armed. -/
theorem DiscoveryInv.finished (h : DiscoveryInv decode s) {i : Nat} {handler : Bool} {c : ZkCmd α}
    {next : (Zk α).Reply c → Program (Zk α) Unit}
    (hi : s.tasks[i]? = some ⟨handler, .written, .call c next⟩) (hp : Finishing s (.call c next)) :
    DiscoveryInv decode (s.advance i) := by
  have hcovered := h.busy hi rfl
  have hkeep : ∀ {s' : Session α} {t' : Task α}, s'.tasks = s.tasks.set i t' → s'.children = s.children →
      s'.version = s.version → s'.undelivered = s.undelivered → s'.cache = s.cache →
        s'.cache = some (instancesOf decode s'.children) ∨ s'.Due ∨ s'.UpToDate := by
    intro s' t' htasks hchildren hversion hevents hcache
    rcases hcovered with hfresh | hdue | hholding
    · exact Or.inl (by rw [hcache, hchildren]; exact hfresh)
    · exact Or.inr (Or.inl (Due.set hdue hi (by simp) htasks hevents))
    · exact Or.inr (Or.inr (UpToDate.set hholding hi (fun hp => by cases hp) htasks hversion))
  simp only [Session.advance, hi]
  rcases hp with hp | hp | ⟨hwatched, hp⟩ | hp
  · cases hp
    refine h.advanced hi rfl rfl rfl rfl (fun _ => rfl) (fun _ => rfl) rfl ?_ (hkeep rfl rfl rfl rfl rfl)
    exact .finishing rfl (Or.inr (Or.inr (Or.inl ⟨rfl, rfl⟩)))
  · cases hp
    refine h.advanced hi rfl rfl rfl rfl id (fun ha => h.watched (Or.inl ha)) rfl ?_ (hkeep rfl rfl rfl rfl rfl)
    refine .finishing rfl ?_
    by_cases hw : s.watched = true
    · exact Or.inr (Or.inr (Or.inl ⟨hw, if_pos hw⟩))
    · exact Or.inr (Or.inr (Or.inr (if_neg hw)))
  · cases hp
    refine h.advanced hi rfl rfl rfl rfl id (fun _ => hwatched) rfl ?_ (hkeep rfl rfl rfl rfl rfl)
    exact .finishing rfl (Or.inr (Or.inr (Or.inr rfl)))
  · cases hp

/-- **Step.** A safe move keeps the invariant. -/
theorem DiscoveryInv.step (h : DiscoveryInv decode s) (m : DiscoveryMove) (hsafe : m.Safe s) :
    DiscoveryInv decode (m.step decode s) := by
  cases m with
  | createNode child data =>
      simp only [DiscoveryMove.step, Session.createNode]
      split
      · rename_i hnew
        refine h.change (hsafe hnew.1 hnew.2) ?_
        rw [List.map_append]
        refine List.nodup_append.mpr ⟨h.names, by simp, fun a ha b hb => ?_⟩
        rintro rfl
        rw [List.map_singleton, List.mem_singleton] at hb
        subst hb
        exact hnew.2 ha
      · exact h
  | deleteNode child =>
      simp only [DiscoveryMove.step, Session.deleteNode]
      split
      · rename_i hold
        exact h.change (hsafe hold) (h.names.sublist (List.filter_sublist.map _))
      · exact h
  | subscribe =>
      have hnext : (AccountService.subscribe decode).next?.isSome = true := by
        rw [AccountService.subscribe, refreshInstances_then]
        rfl
      exact h.start (.reading watchChildren (Or.inl rfl) rfl rfl) rfl hnext le_rfl (fun hf => by cases hf)
  | deliver =>
      simp only [DiscoveryMove.step, Session.deliver]
      split
      · rename_i hevent
        exact h.start (.asking rfl rfl rfl) rfl rfl (Nat.sub_le _ _) fun _ => h.watched (Or.inr (Or.inl hevent.1))
      · exact h
  | advance i =>
      simp only [DiscoveryMove.step]
      cases hi : s.tasks[i]? with
      | none => simpa [Session.advance, hi] using h
      | some t =>
          have hmem := List.mem_of_getElem? hi
          obtain ⟨handler, phase, program⟩ := t
          cases h.staged _ hmem with
          | asking hhandler hphase hp =>
              obtain rfl : handler = true := hhandler
              obtain rfl : phase = .before := hphase
              obtain rfl : program = handleChildEvent decode := hp
              have hwatched := h.watched (Or.inr (Or.inr ⟨_, hmem, rfl⟩))
              obtain ⟨hlt, -⟩ := List.getElem?_eq_some_iff.mp hi
              rw [handleChildEvent] at hi
              simp only [Session.advance, hi]
              have hnext : (refreshInstances decode >>= fun _ => resetWatch).next?.isSome = true := by
                rw [refreshInstances_then]
                rfl
              refine h.advanced hi rfl rfl rfl rfl id (fun ha => h.watched (Or.inl ha)) rfl ?_
                (Or.inr (Or.inl (Or.inr ⟨_, List.mem_set hlt _, rfl, ?_⟩)))
              · refine .reading resetWatch (Or.inr rfl) rfl ?_
                simp only [Session.reply, hwatched, if_true]
              · simp only [Task.running, Session.reply, hwatched, if_true]
                exact hnext
          | reading tail htail hphase hp =>
              obtain rfl : program = _ := hp
              rw [refreshInstances_then] at hi
              exact h.readChildren htail hi
          | collecting tail htail version hphase hversion instances todo hp hcurrent =>
              obtain rfl : phase = .holding version := hphase
              obtain rfl : program = _ := hp
              cases todo with
              | nil =>
                  refine h.stored htail hi hcurrent (hsafe ?_)
                  simp [Session.storesNext, hi, collectThen, collectInstances]
              | cons child todo => exact h.readData htail hversion hi hcurrent
          | finishing hphase hp =>
              obtain rfl : phase = .written := hphase
              cases program with
              | done a => simpa [Session.advance, hi] using h
              | call c next => exact h.finished hi hp

/-- **Run.** Safe moves keep the invariant. -/
theorem DiscoveryInv.run (moves : List DiscoveryMove) (h : DiscoveryInv decode s)
    (hsafe : SafeMoves decode moves s) : DiscoveryInv decode (discover decode moves s) := by
  induction moves generalizing s with
  | nil => exact h
  | cons m rest ih => exact ih (h.step m hsafe.1) hsafe.2

theorem DiscoveryInv.consistent (h : DiscoveryInv decode s) : s.Consistent decode := by
  rintro ⟨hwatched, hevents, hdone⟩
  rcases h.covered with hidle | hfresh | hdue | ⟨t, ht, hholding⟩
  · rw [hidle.1] at hwatched
    cases hwatched
  · exact hfresh
  · rcases hdue with hpos | ⟨t, ht, -, hrunning⟩
    · omega
    · rw [hdone t ht] at hrunning
      cases hrunning
  · -- a task that holds a list has still to store it
    have hstopped := hdone t ht
    cases h.staged t ht with
    | asking hhandler hphase hp =>
        rw [hphase] at hholding
        cases hholding
    | reading tail htail hphase hp =>
        rw [hphase] at hholding
        cases hholding
    | collecting tail htail version hphase hversion instances todo hp hcurrent =>
        rw [Task.running, hp] at hstopped
        cases todo <;> cases hstopped
    | finishing hphase hp =>
        rw [hphase] at hholding
        cases hholding

end Step

/-- A session before the first `Subscribe`. -/
def freshSession {α : Type} (present : Bool) (children : List (Bytes × Bytes)) : Session α :=
  ⟨present, children, 0, false, 0, false, none, []⟩

/-- **Consistency, safely.** If every move of a sequence is safe, the state it ends in is consistent. -/
theorem discovery_consistent {α : Type} (decode : Bytes → Option α) (present : Bool)
    (children : List (Bytes × Bytes)) (hnames : (children.map Prod.fst).Nodup) (moves : List DiscoveryMove)
    (hsafe : SafeMoves decode moves (freshSession present children)) :
    (discover decode moves (freshSession present children)).Consistent decode := by
  have hinit : DiscoveryInv decode (freshSession present children : Session α) := by
    refine ⟨hnames, fun t ht => absurd ht List.not_mem_nil, ?_,
      Or.inl ⟨rfl, fun t ht => absurd ht List.not_mem_nil⟩⟩
    rintro (h | h | ⟨t, ht, -⟩)
    · cases h
    · exact absurd h (Nat.lt_irrefl 0)
    · cases ht
  exact (hinit.run moves hsafe).consistent

/-- A node is created between the `GetChildren` of a `Subscribe` and its `zoo_wget_children`. -/
def createInGap : List DiscoveryMove :=
  [.subscribe, .advance 0, .advance 0, .createNode (ascii "10.0.0.1:50051") (ascii "up"), .advance 0, .advance 0]

theorem change_in_gap_missed :
    ¬(discover some createInGap (freshSession true [])).Consistent (some : Bytes → Option Bytes) := by
  intro h
  have hrun : (discover some createInGap (freshSession true [])).watched = true ∧
      (discover some createInGap (freshSession true [])).undelivered = 0 ∧
      (∀ t ∈ (discover some createInGap (freshSession true [])).tasks, t.running = false) ∧
      (discover (some : Bytes → Option Bytes) createInGap (freshSession true [])).cache ≠
        some (instancesOf some (discover (some : Bytes → Option Bytes) createInGap (freshSession true [])).children) := by
    decide +kernel
  exact hrun.2.2.2 (h ⟨hrun.1, hrun.2.1, hrun.2.2.1⟩)

/-- The node is created once the watch is armed; its event is handled. -/
def createAfterwards : List DiscoveryMove :=
  [.subscribe, .advance 0, .advance 0, .advance 0, .advance 0,
    .createNode (ascii "10.0.0.1:50051") (ascii "up"), .deliver] ++ List.replicate 6 (.advance 1)

theorem discovery_consistent_sample :
    SafeMoves (some : Bytes → Option Bytes) createAfterwards (freshSession true []) ∧
      (discover some createAfterwards (freshSession true [])).Quiescent ∧
      (discover some createAfterwards (freshSession true [])).Consistent (some : Bytes → Option Bytes) := by
  have hsafe : SafeMoves (some : Bytes → Option Bytes) createAfterwards (freshSession true []) := by
    decide +kernel
  have hquiet : (discover (some : Bytes → Option Bytes) createAfterwards (freshSession true [])).watched = true ∧
      (discover (some : Bytes → Option Bytes) createAfterwards (freshSession true [])).undelivered = 0 ∧
      ∀ t ∈ (discover (some : Bytes → Option Bytes) createAfterwards (freshSession true [])).tasks,
        t.running = false := by
    decide +kernel
  exact ⟨hsafe, hquiet, discovery_consistent some true [] List.nodup_nil createAfterwards hsafe⟩

end AccountService
