import AccountService.ModelZooKeeper

/-! What the requests of the server do to its tree: they leave it alone, or they append, erase or write one
entry. -/

namespace AccountService.ZooKeeper

variable {legal : Bytes → Bool} {path : Bytes}

theorem Tree.node_append (t : Tree) (e : Bytes × Node) (path : Bytes) :
    Tree.node (t ++ [e]) path = (t.node path).or (if e.1 = path then some e.2 else none) := by
  rw [Tree.node, Tree.node, List.find?_append]
  cases t.find? (·.1 = path) with
  | some found => rfl
  | none =>
      by_cases he : e.1 = path
      · simp [he]
      · simp [he]

theorem Tree.present_append (t : Tree) (e : Bytes × Node) (path : Bytes) :
    Tree.present (t ++ [e]) path = (t.present path || decide (e.1 = path)) := by
  rw [Tree.present, Tree.present, Tree.node_append, Option.isSome_or, ← Bool.or_assoc]
  congr 1
  by_cases he : e.1 = path
  · simp [he]
  · simp [he]

theorem validPath_of_present {t : Tree} (hall : ∀ e ∈ t, validPath legal e.1) (h : t.present path)
    (hempty : path ≠ []) (hroot : path ≠ [slash]) : validPath legal path := by
  rw [Tree.present, decide_eq_false hempty, decide_eq_false hroot, Bool.false_or, Bool.false_or, Tree.node,
    Option.isSome_map] at h
  obtain ⟨e, he⟩ := Option.isSome_iff_exists.1 h
  have hpath : e.1 = path := by simpa using List.find?_some he
  exact hpath ▸ hall e (List.mem_of_find?_eq_some he)

/-- What `zoo_create` can do: it appends the node, or it leaves the tree alone. -/
theorem zooCreate_cases (legal : Bytes → Bool) (session : Nat) (path data : Bytes) (ephemeral : Bool) (t : Tree) :
    (validPath legal (cString path) ∧ t.present (parentPath (cString path)) ∧ t.present (cString path) = false ∧
      t.ephemeral (parentPath (cString path)) = false ∧ zooCreate legal session path data ephemeral t =
        (.ok, t ++ [(cString path, ⟨data, if ephemeral then some session else none⟩)])) ∨
    (validPath legal (cString path) ∧ t.present (cString path) ∧
      zooCreate legal session path data ephemeral t = (.nodeExists, t)) ∨
    ∃ code, code ≠ .ok ∧ code ≠ .nodeExists ∧ zooCreate legal session path data ephemeral t = (code, t) ∧
      (validPath legal (cString path) = false ∨ t.present (parentPath (cString path)) = false ∨
        t.ephemeral (parentPath (cString path))) := by
  simp only [zooCreate]
  cases hvalid : validPath legal (cString path) with
  | false => exact .inr (.inr ⟨.badArguments, by decide, by decide, rfl, .inl rfl⟩)
  | true =>
      cases hparent : t.present (parentPath (cString path)) with
      | false => exact .inr (.inr ⟨.noNode, by decide, by decide, rfl, .inr (.inl rfl)⟩)
      | true =>
          cases hpresent : t.present (cString path) with
          | true => exact .inr (.inl ⟨rfl, rfl, rfl⟩)
          | false =>
              cases heph : t.ephemeral (parentPath (cString path)) with
              | true =>
                  exact .inr (.inr ⟨.noChildrenForEphemerals, by decide, by decide, rfl, .inr (.inr rfl)⟩)
              | false => exact .inl ⟨rfl, rfl, rfl, rfl, rfl⟩

/-- What `zoo_set` can do: it writes the data of the entry, or it leaves the tree alone. -/
theorem zooSet_cases (legal : Bytes → Bool) (path data : Bytes) (t : Tree) :
    (validPath legal (cString path) ∧ t.present (cString path) ∧ t.node (cString path) = none ∧
      zooSet legal path data t = (.ok, t ++ [(cString path, ⟨data, none⟩)])) ∨
    (validPath legal (cString path) ∧ (∃ node, t.node (cString path) = some node) ∧
      zooSet legal path data t = (.ok, t.write (cString path) data)) ∨
    ∃ code, code ≠ .ok ∧ zooSet legal path data t = (code, t) ∧
      (validPath legal (cString path) = false ∨ t.present (cString path) = false) := by
  simp only [zooSet]
  cases hvalid : validPath legal (cString path) with
  | false => exact .inr (.inr ⟨.badArguments, by decide, rfl, .inl rfl⟩)
  | true =>
      cases hpresent : t.present (cString path) with
      | false => exact .inr (.inr ⟨.noNode, by decide, rfl, .inr rfl⟩)
      | true =>
          cases hnode : t.node (cString path) with
          | none => exact .inl ⟨rfl, rfl, rfl, rfl⟩
          | some node => exact .inr (.inl ⟨rfl, ⟨node, rfl⟩, rfl⟩)

theorem Tree.node_cons (e : Bytes × Node) (t : Tree) (path : Bytes) :
    Tree.node (e :: t) path = if e.1 = path then some e.2 else t.node path := by
  rw [Tree.node, List.find?_cons]
  by_cases he : e.1 = path
  · simp [he]
  · simp [he, Tree.node]

theorem Tree.node_write (t : Tree) (path data other : Bytes) :
    (t.write path data).node other =
      if other = path then (t.node path).map fun node => { node with data := data } else t.node other := by
  induction t with
  | nil => simp [Tree.write, Tree.node]
  | cons e t ih =>
      rw [Tree.write, List.map_cons]
      by_cases he : e.1 = path
      · rw [if_pos he, Tree.node_cons, Tree.node_cons, Tree.node_cons, if_pos he]
        by_cases ho : other = path
        · rw [if_pos ho, if_pos (he.trans ho.symm), Option.map_some]
        · rw [if_neg ho, if_neg fun h => ho (h.symm.trans he), if_neg fun h => ho (h.symm.trans he)]
          exact ih.trans (if_neg ho)
      · rw [if_neg he, Tree.node_cons, Tree.node_cons, Tree.node_cons, if_neg he]
        by_cases ho : other = path
        · rw [if_pos ho, if_neg fun h => he (h.trans ho)]
          exact ih.trans (if_pos ho)
        · rw [if_neg ho]
          by_cases heo : e.1 = other
          · rw [if_pos heo, if_pos heo]
          · rw [if_neg heo, if_neg heo]
            exact ih.trans (if_neg ho)

theorem Tree.node_erase (t : Tree) (path other : Bytes) :
    Tree.node (t.filter (·.1 ≠ path)) other = if other = path then none else t.node other := by
  induction t with
  | nil => simp [Tree.node]
  | cons e t ih =>
      by_cases he : e.1 = path
      · rw [List.filter_cons_of_neg (by simpa using he), ih, Tree.node_cons]
        by_cases ho : other = path
        · rw [if_pos ho, if_pos ho]
        · rw [if_neg ho, if_neg ho, if_neg fun h => ho (h.symm.trans he)]
      · rw [List.filter_cons_of_pos (by simpa using he), Tree.node_cons, Tree.node_cons, ih]
        by_cases heo : e.1 = other
        · rw [if_pos heo, if_neg fun h => he (heo.trans h), if_pos heo]
        · rw [if_neg heo, if_neg heo]

theorem Tree.node_eq_none_iff {t : Tree} : t.node path = none ↔ ∀ e ∈ t, e.1 ≠ path := by
  simp [Tree.node]

theorem Tree.node_of_not_present {t : Tree} (h : t.present path = false) : t.node path = none := by
  rw [Tree.present, Bool.or_eq_false_iff] at h
  exact Option.isNone_iff_eq_none.1 (by rw [← Option.not_isSome, h.2]; rfl)

/-- What a faithful server keeps: one node for a path, every parent there, no ephemeral node with children. -/
structure WellFormed (legal : Bytes → Bool) (t : Tree) : Prop where
  distinct : (t.map Prod.fst).Nodup
  accepted : ∀ e ∈ t, validPath legal e.1
  rooted : ∀ e ∈ t, t.present (parentPath e.1)
  leaf : ∀ e ∈ t, e.2.owner.isSome → t.hasChildren e.1 = false
  notRoot : ∀ e ∈ t, e.2.owner.isSome → e.1 ≠ [slash]

theorem wellFormed_nil (legal : Bytes → Bool) : WellFormed legal [] :=
  ⟨List.nodup_nil, fun _ h => (nomatch h), fun _ h => (nomatch h), fun _ h => (nomatch h), fun _ h => (nomatch h)⟩

theorem parentPath_length_lt (h : validPath legal path) : (parentPath path).length < path.length := by
  have hpos : 0 < path.length := by
    cases path with
    | nil => exact Bool.noConfusion h
    | cons c rest => exact Nat.succ_pos _
  have hdrop : (path.reverse.dropWhile (· ≠ slash)).length ≤ path.length := by
    have hreverse : path.reverse.length = path.length := List.length_reverse
    rw [← hreverse]
    exact (List.dropWhile_suffix _).length_le
  rw [parentPath, List.length_reverse, List.length_drop]
  omega

theorem Tree.node_of_mem {t : Tree} (hdistinct : (t.map Prod.fst).Nodup) {e : Bytes × Node} (he : e ∈ t) :
    t.node e.1 = some e.2 := by
  induction t with
  | nil => cases he
  | cons e' t ih =>
      rw [List.map_cons, List.nodup_cons] at hdistinct
      rw [Tree.node_cons]
      rcases List.mem_cons.1 he with rfl | he
      · rw [if_pos rfl]
      · have hne : e'.1 ≠ e.1 := fun h => hdistinct.1 (h ▸ List.mem_map_of_mem he)
        rw [if_neg hne]
        exact ih hdistinct.2 he

theorem Tree.hasChildren_eq_false_iff {t : Tree} : t.hasChildren path = false ↔ ∀ e ∈ t, parentPath e.1 ≠ path := by
  simp [Tree.hasChildren]

theorem Tree.present_iff {t : Tree} : t.present path ↔ path = [] ∨ path = [slash] ∨ ∃ e ∈ t, e.1 = path := by
  simp [Tree.present, Tree.node, or_assoc]

theorem Tree.present_of_mem {t : Tree} {e : Bytes × Node} (he : e ∈ t) : t.present e.1 :=
  Tree.present_iff.2 (.inr (.inr ⟨e, he, rfl⟩))

namespace WellFormed

variable {t : Tree} {node : Node}

/-- A new node below one that may have children. -/
theorem insert (h : WellFormed legal t) (hvalid : validPath legal path) (hfresh : t.present path = false)
    (hparent : t.present (parentPath path)) (hpersistent : t.ephemeral (parentPath path) = false) :
    WellFormed legal (t ++ [(path, node)]) := by
  have habsent : ∀ e ∈ t, e.1 ≠ path := Tree.node_eq_none_iff.1 (Tree.node_of_not_present hfresh)
  have hlt := parentPath_length_lt hvalid
  have hmem : ∀ e ∈ t ++ [(path, node)], e ∈ t ∨ e = (path, node) := fun e he =>
    (List.mem_append.1 he).imp_right List.mem_singleton.1
  refine ⟨?_, fun e he => ?_, fun e he => ?_, fun e he howner => ?_, fun e he howner => ?_⟩
  · rw [List.map_append, List.nodup_append]
    refine ⟨h.distinct, List.nodup_singleton _, fun a ha b hb hab => ?_⟩
    obtain ⟨e, he, rfl⟩ := List.mem_map.1 ha
    exact habsent e he (hab.trans (List.mem_singleton.1 hb))
  · rcases hmem e he with he | rfl
    · exact h.accepted e he
    · exact hvalid
  · rw [Tree.present_append, Bool.or_eq_true]
    rcases hmem e he with he | rfl
    · exact .inl (h.rooted e he)
    · exact .inl hparent
  · rw [Tree.hasChildren_eq_false_iff]
    intro e' he'
    rcases hmem e he with he | rfl
    · rcases hmem e' he' with he' | rfl
      · exact Tree.hasChildren_eq_false_iff.1 (h.leaf e he howner) e' he'
      · intro heq
        rw [Tree.ephemeral, heq, Tree.node_of_mem h.distinct he, Option.any_some, howner] at hpersistent
        exact Bool.noConfusion hpersistent
    · rcases hmem e' he' with he' | rfl
      · intro heq
        have hpresent := h.rooted e' he'
        rw [heq, hfresh] at hpresent
        exact Bool.noConfusion hpresent
      · exact fun heq => absurd (congrArg List.length heq) (Nat.ne_of_lt hlt)
  · rcases hmem e he with he | rfl
    · exact h.notRoot e he howner
    · intro hroot
      rw [Tree.present, decide_eq_true hroot, Bool.or_true, Bool.true_or] at hfresh
      exact Bool.noConfusion hfresh

/-- A node without children goes. -/
theorem erase (h : WellFormed legal t) (hchildren : t.hasChildren path = false) :
    WellFormed legal (t.filter (·.1 ≠ path)) := by
  have hsub : ∀ e ∈ t.filter (·.1 ≠ path), e ∈ t := fun e he => List.mem_of_mem_filter he
  refine ⟨(List.filter_sublist.map _).nodup h.distinct, fun e he => h.accepted e (hsub e he), fun e he => ?_,
    fun e he howner => ?_, fun e he => h.notRoot e (hsub e he)⟩
  · rcases Tree.present_iff.1 (h.rooted e (hsub e he)) with hempty | hroot | ⟨parent, hparent, hpath⟩
    · exact Tree.present_iff.2 (.inl hempty)
    · exact Tree.present_iff.2 (.inr (.inl hroot))
    · refine Tree.present_iff.2 (.inr (.inr ⟨parent, List.mem_filter.2 ⟨hparent, ?_⟩, hpath⟩))
      have hne : parent.1 ≠ path := fun heq =>
        Tree.hasChildren_eq_false_iff.1 hchildren e (hsub e he) (hpath.symm.trans heq)
      exact decide_eq_true hne
  · exact Tree.hasChildren_eq_false_iff.2 fun e' he' =>
      Tree.hasChildren_eq_false_iff.1 (h.leaf e (hsub e he) howner) e' (hsub e' he')

theorem not_ephemeral_of_child (h : WellFormed legal t) {e : Bytes × Node} (he : e ∈ t) :
    t.ephemeral (parentPath e.1) = false := by
  rw [Tree.ephemeral, Tree.node]
  cases hfind : t.find? (·.1 = parentPath e.1) with
  | none => rfl
  | some parent =>
      have hpath : parent.1 = parentPath e.1 := by simpa using List.find?_some hfind
      cases howner : parent.2.owner.isSome with
      | false => simp [howner]
      | true =>
          have hleaf := h.leaf parent (List.mem_of_find?_eq_some hfind) howner
          exact absurd hpath.symm (Tree.hasChildren_eq_false_iff.1 hleaf e he)

end WellFormed

/-- A place below a node that may have children. -/
structure Vacant (legal : Bytes → Bool) (path : Bytes) (t : Tree) : Prop where
  wellFormed : WellFormed legal t
  fresh : t.present path = false
  parent : t.present (parentPath path)
  persistent : t.ephemeral (parentPath path) = false

/-- **Anew.** A node without children is erased, and leaves its place. -/
theorem WellFormed.vacate {t : Tree} (h : WellFormed legal t) (hvalid : validPath legal (cString path))
    (hpresent : t.present (cString path)) (hroot : cString path ≠ [slash])
    (hchildren : t.hasChildren (cString path) = false) :
    zooDelete legal path t = (.ok, t.filter (·.1 ≠ cString path)) ∧
      Vacant legal (cString path) (t.filter (·.1 ≠ cString path)) := by
  have hempty : cString path ≠ [] := fun h => by rw [h] at hvalid; exact Bool.noConfusion hvalid
  have hfresh : Tree.present (t.filter (·.1 ≠ cString path)) (cString path) = false := by
    rw [Tree.present, Tree.node_erase, if_pos rfl, decide_eq_false hempty, decide_eq_false hroot]
    rfl
  obtain ⟨e, he, hpath⟩ := ((Tree.present_iff.1 hpresent).resolve_left hempty).resolve_left hroot
  have hne : parentPath (cString path) ≠ cString path := fun heq =>
    absurd (congrArg List.length heq) (Nat.ne_of_lt (parentPath_length_lt hvalid))
  have hparent : Tree.present (t.filter (·.1 ≠ cString path)) (parentPath (cString path)) := by
    have hbefore := h.rooted e he
    rw [hpath, Tree.present] at hbefore
    rwa [Tree.present, Tree.node_erase, if_neg hne]
  have hpersistent : Tree.ephemeral (t.filter (·.1 ≠ cString path)) (parentPath (cString path)) = false := by
    have hbefore := h.not_ephemeral_of_child he
    rw [hpath, Tree.ephemeral] at hbefore
    rwa [Tree.ephemeral, Tree.node_erase, if_neg hne]
  refine ⟨?_, h.erase hchildren, hfresh, hparent, hpersistent⟩
  simp [zooDelete, hvalid, hpresent, hroot, hchildren]

/-- **Anew, the other way.** A vacant place is taken. -/
theorem Vacant.create {t : Tree} (h : Vacant legal (cString path) t) (session : Nat) (data : Bytes)
    (hvalid : validPath legal (cString path)) :
    zooCreate legal session path data true t = (.ok, t ++ [(cString path, ⟨data, some session⟩)]) ∧
      WellFormed legal (t ++ [(cString path, ⟨data, some session⟩)]) := by
  refine ⟨?_, h.wellFormed.insert hvalid h.fresh h.parent h.persistent⟩
  simp [zooCreate, hvalid, h.parent, h.fresh, h.persistent]

theorem Tree.mem_write {t : Tree} {data : Bytes} {e : Bytes × Node} (he : e ∈ t.write path data) :
    ∃ e' ∈ t, e'.1 = e.1 ∧ e'.2.owner = e.2.owner := by
  obtain ⟨e', he', rfl⟩ := List.mem_map.1 he
  refine ⟨e', he', ?_⟩
  split
  · exact ⟨rfl, rfl⟩
  · exact ⟨rfl, rfl⟩

theorem Tree.write_paths (t : Tree) (path data : Bytes) : (t.write path data).map Prod.fst = t.map Prod.fst := by
  rw [Tree.write, List.map_map]
  refine List.map_congr_left fun e _ => ?_
  rw [Function.comp_apply]
  split
  · rfl
  · rfl

theorem Tree.present_congr {t t' : Tree} (h : t'.map Prod.fst = t.map Prod.fst) (path : Bytes) :
    t'.present path = t.present path := by
  have hmem : (∃ e ∈ t', e.1 = path) ↔ ∃ e ∈ t, e.1 = path := by
    rw [← List.mem_map, ← List.mem_map, h]
  rw [Bool.eq_iff_iff, Tree.present_iff, Tree.present_iff, hmem]

theorem Tree.hasChildren_congr {t t' : Tree} (h : t'.map Prod.fst = t.map Prod.fst) (path : Bytes) :
    t'.hasChildren path = t.hasChildren path := by
  have hany : ∀ t : Tree, t.hasChildren path = (t.map Prod.fst).any fun p => parentPath p = path := fun t => by
    rw [Tree.hasChildren, List.any_map]
    rfl
  rw [hany, hany, h]

theorem WellFormed.write {t : Tree} (h : WellFormed legal t) (path data : Bytes) :
    WellFormed legal (t.write path data) := by
  have hpaths := Tree.write_paths t path data
  refine ⟨hpaths ▸ h.distinct, fun e he => ?_, fun e he => ?_, fun e he howner => ?_, fun e he howner => ?_⟩
  · obtain ⟨e', he', hpath, -⟩ := Tree.mem_write he
    exact hpath ▸ h.accepted e' he'
  · obtain ⟨e', he', hpath, -⟩ := Tree.mem_write he
    rw [Tree.present_congr hpaths, ← hpath]
    exact h.rooted e' he'
  · obtain ⟨e', he', hpath, hsame⟩ := Tree.mem_write he
    rw [Tree.hasChildren_congr hpaths, ← hpath]
    exact h.leaf e' he' (hsame ▸ howner)
  · obtain ⟨e', he', hpath, hsame⟩ := Tree.mem_write he
    exact hpath ▸ h.notRoot e' he' (hsame ▸ howner)

end AccountService.ZooKeeper
