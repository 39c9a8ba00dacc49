import AccountService.LibraryRely
import AccountService.ModelFleet

/-! What a request of a server leaves alone, whoever acts before it: persistent nodes without data are made on the
way to its service, and one node is touched besides, whose path no other server uses. -/

namespace AccountService.Fleet

open Interaction ZooKeeper ServiceRegistry

theorem parentPath_prefix (path : Bytes) : parentPath path <+: path := by
  have hsuffix : (path.reverse.dropWhile (· ≠ slash)).drop 1 <:+ path.reverse :=
    (List.drop_suffix _ _).trans (List.dropWhile_suffix _)
  have hprefix := List.reverse_prefix.2 hsuffix
  rwa [List.reverse_reverse] at hprefix

theorem parentPath_append {path : Bytes} (h : slash ∈ path) : ∃ rest, path = parentPath path ++ slash :: rest := by
  obtain ⟨back, front, hsplit, hback⟩ := List.eq_append_cons_of_mem (List.mem_reverse.2 h)
  have hpath : path = front.reverse ++ slash :: back.reverse := by
    have hreverse := congrArg List.reverse hsplit
    rw [List.reverse_reverse, List.reverse_append, List.reverse_cons, List.append_assoc, List.singleton_append]
      at hreverse
    exact hreverse
  refine ⟨back.reverse, ?_⟩
  have hparent : parentPath path = front.reverse := by
    rw [hpath]
    exact parentPath_child (fun hmem => hback (List.mem_reverse.1 hmem)) _
  rw [hparent]
  exact hpath

theorem slash_mem_of_validPath {legal : Bytes → Bool} {path : Bytes} (h : validPath legal path) : slash ∈ path := by
  cases path with
  | nil => cases h
  | cons c rest =>
      rw [validPath, Bool.and_eq_true, decide_eq_true_iff] at h
      rw [h.1]
      exact List.mem_cons_self

section Paths

variable {plan : Plan} (hplan : plan.Proper) {j k : Nat}

include hplan

theorem buildServicePath_ends {name : Bytes} (hname : 0 ∉ name) :
    0 ∉ ServiceRegistry.buildServicePath plan.rootPath name := by
  rw [ServiceRegistry.buildServicePath, List.mem_append, List.mem_cons]
  rintro (h | h | h)
  · exact hplan.rootEnds h
  · exact absurd h (by decide)
  · exact hname h

theorem servicePath_ends (k : Nat) : 0 ∉ plan.servicePath k := buildServicePath_ends hplan (hplan.named k).2.2

theorem path_ends (k : Nat) : 0 ∉ plan.path k := by
  rw [Plan.path, List.mem_append, List.mem_cons]
  rintro (h | h | h)
  · exact servicePath_ends hplan k h
  · exact absurd h (by decide)
  · exact (hplan.addressed k).2 h

theorem cString_path (k : Nat) : cString (plan.path k) = plan.path k := cString_of_not_mem (path_ends hplan k)

theorem parentPath_path (k : Nat) : parentPath (plan.path k) = plan.servicePath k :=
  parentPath_child (hplan.addressed k).1 _

theorem path_injective (h : plan.path j = plan.path k) : j = k := by
  have hservice : plan.servicePath j = plan.servicePath k := by
    rw [← parentPath_path hplan j, h, parentPath_path hplan k]
  rw [Plan.path, Plan.path, hservice] at h
  exact hplan.distinct j k (List.cons.inj (List.append_cancel_left h)).2

theorem servicePath_ne (k : Nat) : plan.servicePath k ≠ [] ∧ plan.servicePath k ≠ [slash] := by
  have hroot : 0 < plan.rootPath.length := by
    cases hcase : plan.rootPath with
    | nil =>
        have hrooted := hplan.rooted
        rw [hcase] at hrooted
        cases hrooted
    | cons c rest => exact Nat.succ_pos _
  have hlength : 1 < (plan.servicePath k).length := by
    rw [Plan.servicePath, ServiceRegistry.buildServicePath, List.length_append, List.length_cons]
    omega
  refine ⟨fun h => ?_, fun h => ?_⟩
  · rw [h] at hlength
    exact absurd hlength (by decide)
  · rw [h] at hlength
    exact absurd hlength (by decide)

theorem path_ne_root (k : Nat) : plan.path k ≠ [slash] := by
  intro h
  have hparent := parentPath_path hplan k
  rw [h] at hparent
  exact (servicePath_ne hplan k).1 hparent.symm

/-- The path of an instance, and what is behind it, is no part of the path of a service. -/
theorem path_not_prefix (j k : Nat) (rest : Bytes) : ¬(plan.path k ++ rest) <+: plan.servicePath j := by
  intro h
  rw [Plan.path, Plan.servicePath, Plan.servicePath, ServiceRegistry.buildServicePath,
    ServiceRegistry.buildServicePath, List.append_assoc, List.append_assoc, List.prefix_append_right_inj,
    List.cons_append, List.cons_prefix_cons] at h
  exact (hplan.named j).2.1 (h.2.subset (by simp))

omit hplan in
theorem buildInstancePath_describes {inst : ServiceInstance} (h : plan.Describes k inst) :
    buildInstancePath plan.rootPath inst = plan.path k := by
  rw [buildInstancePath_eq h.name, Plan.path, ServiceInstance.getAddress, h.host, h.port]
  rfl

theorem isValid_describes {inst : ServiceInstance} (h : plan.Describes k inst) : inst.isValid = true := by
  obtain ⟨hhost, hport⟩ := hplan.usable k
  rw [ServiceInstance.isValid, h.host, h.port, decide_eq_true hport, Bool.and_true]
  simpa using hhost

end Paths

/-- Persistent nodes without data on the way to a service. -/
def Paves (path : Bytes) : ClientCmd → Prop
  | .isConnected | .exists _ => True
  | .create path' data ephemeral => ephemeral = false ∧ data = [] ∧ path' <+: path
  | _ => False

theorem createNode_paves {path path' : Bytes} (h : path' <+: path) : (createNode path' [] false).Uses (Paves path) := by
  refine ⟨trivial, fun connected => ?_⟩
  cases connected with
  | false => trivial
  | true =>
      refine ⟨⟨rfl, rfl, h⟩, fun rc => ?_⟩
      cases rc <;> trivial

theorem existsNode_paves (path path' : Bytes) : (existsNode path').Uses (Paves path) := by
  refine ⟨trivial, fun connected => ?_⟩
  cases connected with
  | false => trivial
  | true => exact ⟨trivial, fun _ => trivial⟩

theorem prefix_joined (current : Bytes) (names : List Bytes) : current <+: joined current names := by
  induction names generalizing current with
  | nil => exact List.prefix_refl _
  | cons name rest ih => exact (List.prefix_append current (slash :: name)).trans (ih _)

theorem createTokens_paves (tokens : List Bytes) (htokens : ∀ token ∈ tokens, token ≠ []) (current : Bytes) :
    (createTokens current tokens).Uses (Paves (joined current tokens)) := by
  induction tokens generalizing current with
  | nil => trivial
  | cons token rest ih =>
      have hne : ¬token.isEmpty := fun h => htokens token List.mem_cons_self (List.isEmpty_iff.1 h)
      have hrest := ih (fun t ht => htokens t (List.mem_cons_of_mem _ ht)) (current ++ slash :: token)
      rw [createTokens, if_neg hne]
      refine (existsNode_paves _ _).bind fun found => ?_
      cases found with
      | true => exact hrest
      | false =>
          refine (createNode_paves (prefix_joined _ rest)).bind fun created => ?_
          cases created with
          | true => exact hrest
          | false => trivial

theorem createServicePath_paves {path : Bytes} (hhead : path.head? = some slash) (h : WellShaped path) :
    (createServicePath path).Uses (Paves path) := by
  refine ⟨trivial, fun connected => ?_⟩
  cases connected with
  | false => trivial
  | true =>
      obtain ⟨rest, rfl, hsplit⟩ := splitOn_of_head hhead
      have hpaves := createTokens_paves (rest.splitOn slash) h []
      rw [joined_eq _ _ (List.splitOn_ne_nil slash rest), List.intercalate_splitOn] at hpaves
      show (createTokens [] ((slash :: rest).splitOn slash)).Uses _
      rw [hsplit]
      exact hpaves

section Frame

variable {F : Type} (plan : Plan) (legal : Bytes → Bool) (lib : JsonLibrary F)

/-- The data of an instance of server `k`: it fits into the buffer of the discovery client, and the parser reads it
back. -/
structure Reads (k : Nat) (inst : ServiceInstance) (data : Bytes) : Prop where
  describes : plan.Describes k inst
  fits : data.length ≤ maxDataSize
  parsed : lib.parse data = some inst.parsedValue

/-- The requests of server `k`. -/
def Aims (k : Nat) : ClientCmd → Prop
  | .isConnected | .exists _ => True
  | .create path data true => path = plan.path k ∧ ∃ inst, Reads plan lib k inst data
  | .create path data false => data = [] ∧ cString path <+: plan.servicePath k
  | .delete path => path = plan.path k
  | .set path data => path = plan.path k ∧ ∃ inst, Reads plan lib k inst data

/-- What the servers keep of the tree. -/
structure Tended (t : Tree) : Prop where
  wellFormed : WellFormed legal t
  /-- Persistent nodes have no data and stand on the way to some service. -/
  bare : ∀ e ∈ t, e.2.owner = none → e.2.data = [] ∧ ∃ j, e.1 <+: plan.servicePath j
  own : ∀ j, ∀ e ∈ owned j t, e.1 = plan.path j ∧ ∃ inst, Reads plan lib j inst e.2.data

/-- A persistent node. -/
def Lasting (path : Bytes) (t : Tree) : Prop := ∃ e ∈ t, e.1 = path ∧ e.2.owner = none

/-- What server `k` can rely on, whatever the other servers do. -/
structure Rely (k : Nat) (s s' : Server) : Prop where
  connected : s.connected → s'.connected
  tended : Tended plan legal lib s.tree → Tended plan legal lib s'.tree
  owned : owned k s'.tree = owned k s.tree
  lasting : ∀ path, Lasting path s.tree → Lasting path s'.tree

variable {plan legal lib} {j k : Nat} {t t' : Tree} {s s' s'' : Server} {path data : Bytes}

theorem Rely.refl (k : Nat) (s : Server) : Rely plan legal lib k s s := ⟨id, id, rfl, fun _ => id⟩

theorem Rely.trans (h : Rely plan legal lib k s s') (h' : Rely plan legal lib k s' s'') :
    Rely plan legal lib k s s'' :=
  ⟨h'.connected ∘ h.connected, h'.tended ∘ h.tended, h'.owned.trans h.owned,
    fun path hpath => h'.lasting path (h.lasting path hpath)⟩

theorem mem_owned {e : Bytes × Node} : e ∈ owned k t ↔ e ∈ t ∧ e.2.owner = some k := by
  rw [owned, List.mem_filter, decide_eq_true_iff]

theorem owned_create {e : Bytes × Node} (h : e.2.owner ≠ some j) : owned j (t ++ [e]) = owned j t := by
  rw [owned, List.filter_append, List.filter_cons_of_neg (by simpa using h), List.filter_nil, List.append_nil]
  rfl

theorem owned_filter_ne (h : ∀ e ∈ owned j t, e.1 ≠ path) : owned j (t.filter (·.1 ≠ path)) = owned j t := by
  rw [owned_erase]
  exact List.filter_eq_self.2 fun e he => decide_eq_true (h e he)

theorem owned_write_ne (h : ∀ e ∈ owned j t, e.1 ≠ path) : owned j (t.write path data) = owned j t := by
  rw [owned_write, Tree.write]
  exact (List.map_congr_left fun e he => if_neg (h e he)).trans (List.map_id _)

theorem handler_connected (legal : Bytes → Bool) (k : Nat) (c : ClientCmd) (s : Server) :
    (handler legal k c s).2.connected = s.connected := by
  cases c with
  | isConnected | «exists» path => rfl
  | create path data ephemeral | delete path | set path data =>
      rw [handler]
      split
      · rfl
      · rfl

/-- What `zoo_delete` can do: it erases a node without children, or it leaves the tree alone. -/
theorem zooDelete_cases (legal : Bytes → Bool) (path : Bytes) (t : Tree) :
    (t.hasChildren (cString path) = false ∧ zooDelete legal path t = (.ok, t.filter (·.1 ≠ cString path))) ∨
      ∃ code, zooDelete legal path t = (code, t) := by
  simp only [zooDelete]
  split
  · exact .inr ⟨_, rfl⟩
  · split
    · exact .inr ⟨_, rfl⟩
    · split
      · exact .inr ⟨_, rfl⟩
      · rename_i hchildren
        exact .inl ⟨by simpa using hchildren, rfl⟩

variable (hplan : plan.Proper)

namespace Tended

include hplan in
/-- Nothing that lasts is at the path of an instance, or behind it. -/
theorem not_lasting (h : Tended plan legal lib t) {e : Bytes × Node} (he : e ∈ t) (howner : e.2.owner = none)
    (k : Nat) : ¬plan.path k <+: e.1 := by
  intro hprefix
  obtain ⟨-, j, hj⟩ := h.bare e he howner
  refine path_not_prefix hplan j k [] ?_
  rw [List.append_nil]
  exact hprefix.trans hj

include hplan in
/-- What is at the path of a server is its own. -/
theorem owner_eq (h : Tended plan legal lib t) {e : Bytes × Node} (he : e ∈ t) (hpath : e.1 = plan.path k) :
    e.2.owner = some k := by
  cases howner : e.2.owner with
  | none => exact absurd (hpath ▸ List.prefix_refl _) (h.not_lasting hplan he howner k)
  | some j =>
      have hown := (h.own j e (mem_owned.2 ⟨he, howner⟩)).1
      rw [path_injective hplan (hown.symm.trans hpath)]

include hplan in
theorem apart (h : Tended plan legal lib t) (hj : j ≠ k) {e : Bytes × Node} (he : e ∈ owned j t) :
    e.1 ≠ plan.path k := fun heq => hj (path_injective hplan ((h.own j e he).1.symm.trans heq))

include hplan in
/-- Below the node of an instance there is nothing. -/
theorem childless (h : Tended plan legal lib t) (k : Nat) : t.hasChildren (plan.path k) = false := by
  refine Tree.hasChildren_eq_false_iff.2 fun e he hparent => ?_
  have hprefix : plan.path k <+: e.1 := hparent ▸ parentPath_prefix e.1
  cases howner : e.2.owner with
  | none => exact h.not_lasting hplan he howner k hprefix
  | some j =>
      have hpath := (h.own j e (mem_owned.2 ⟨he, howner⟩)).1
      rw [hpath, parentPath_path hplan] at hparent
      refine path_not_prefix hplan j k [] ?_
      rw [List.append_nil, hparent]

end Tended

/-- A tree, and another one that differs from it by a request of server `k`. -/
structure Advances (plan : Plan) (legal : Bytes → Bool) (lib : JsonLibrary F) (k : Nat) (t t' : Tree) : Prop where
  tended : Tended plan legal lib t'
  owned : ∀ j, j ≠ k → owned j t' = owned j t
  lasting : ∀ path, Lasting path t → Lasting path t'

theorem Advances.refl (h : Tended plan legal lib t) : Advances plan legal lib k t t := ⟨h, fun _ _ => rfl, fun _ => id⟩

include hplan in
theorem Tended.create {ephemeral : Bool} (h : Tended plan legal lib t)
    (hc : Aims plan lib k (.create path data ephemeral))
    (hvalid : validPath legal (cString path)) (hparent : t.present (parentPath (cString path)))
    (hfresh : t.present (cString path) = false) (hpersistent : t.ephemeral (parentPath (cString path)) = false) :
    Advances plan legal lib k t (t ++ [(cString path, ⟨data, if ephemeral then some k else none⟩)]) := by
  have hwellFormed : WellFormed legal (t ++ [(cString path, ⟨data, if ephemeral then some k else none⟩)]) :=
    h.wellFormed.insert hvalid hfresh hparent hpersistent
  have hlasting : ∀ path', Lasting path' t →
      Lasting path' (t ++ [(cString path, ⟨data, if ephemeral then some k else none⟩)]) :=
    fun path' ⟨e, he, hpath⟩ => ⟨e, List.mem_append_left _ he, hpath⟩
  have howned : ∀ j, (if ephemeral then some k else none) ≠ some j →
      owned j (t ++ [(cString path, ⟨data, if ephemeral then some k else none⟩)]) = owned j t :=
    fun j hj => owned_create hj
  cases ephemeral with
  | false =>
      have howned : ∀ j, owned j (t ++ [(cString path, ⟨data, none⟩)]) = owned j t := fun j =>
        howned j fun h => by cases h
      refine ⟨⟨hwellFormed, fun e he howner => ?_, fun j e he => h.own j e (howned j ▸ he)⟩, fun j _ => howned j,
        hlasting⟩
      rcases List.mem_append.1 he with he | he
      · exact h.bare e he howner
      · rw [List.mem_singleton.1 he]
        exact ⟨hc.1, k, hc.2⟩
  | true =>
      have howned : ∀ j, j ≠ k → owned j (t ++ [(cString path, ⟨data, some k⟩)]) = owned j t := fun j hj =>
        howned j fun h => hj (Option.some.inj h).symm
      refine ⟨⟨hwellFormed, fun e he howner => ?_, fun j e he => ?_⟩, howned, hlasting⟩
      · rcases List.mem_append.1 he with he | he
        · exact h.bare e he howner
        · rw [List.mem_singleton.1 he] at howner
          cases howner
      · by_cases hj : j = k
        · subst hj
          rw [if_pos rfl, owned_append] at he
          rcases List.mem_append.1 he with he | he
          · exact h.own j e he
          · rw [List.mem_singleton.1 he]
            refine ⟨?_, hc.2⟩
            rw [hc.1]
            exact cString_path hplan j
        · exact h.own j e (howned j hj ▸ he)

include hplan in
theorem Tended.erase (h : Tended plan legal lib t) (k : Nat) :
    Advances plan legal lib k t (t.filter (·.1 ≠ plan.path k)) := by
  have howned : ∀ j, j ≠ k → owned j (t.filter (·.1 ≠ plan.path k)) = owned j t := fun j hj =>
    owned_filter_ne fun e he => h.apart hplan hj he
  refine ⟨⟨h.wellFormed.erase (h.childless hplan k), fun e he => h.bare e (List.mem_of_mem_filter he),
    fun j e he => ?_⟩, howned,
    fun path ⟨e, he, hpath, howner⟩ => ⟨e, List.mem_filter.2 ⟨he, decide_eq_true ?_⟩, hpath, howner⟩⟩
  · obtain ⟨hmem, howner⟩ := mem_owned.1 he
    exact h.own j e (mem_owned.2 ⟨List.mem_of_mem_filter hmem, howner⟩)
  · exact fun heq => h.not_lasting hplan he howner k (heq ▸ List.prefix_refl _)

include hplan in
theorem Tended.write (h : Tended plan legal lib t) {inst : ServiceInstance} (hdata : Reads plan lib k inst data) :
    Advances plan legal lib k t (t.write (plan.path k) data) := by
  have howned : ∀ j, j ≠ k → owned j (t.write (plan.path k) data) = owned j t := fun j hj =>
    owned_write_ne fun e he => h.apart hplan hj he
  have hkeeps : ∀ e ∈ t, e.2.owner = none → e ∈ t.write (plan.path k) data := fun e he howner => by
    refine List.mem_map.2 ⟨e, he, if_neg fun heq => ?_⟩
    exact h.not_lasting hplan he howner k (heq ▸ List.prefix_refl _)
  refine ⟨⟨h.wellFormed.write _ _, fun e he howner => ?_, fun j e he => ?_⟩, howned,
    fun path ⟨e, he, hpath, howner⟩ => ⟨e, hkeeps e he howner, hpath, howner⟩⟩
  · obtain ⟨old, hold, rfl⟩ := List.mem_map.1 he
    split at howner
    · rename_i hat
      exact absurd (hat ▸ List.prefix_refl _) (h.not_lasting hplan hold howner k)
    · rename_i hat
      rw [if_neg hat]
      exact h.bare old hold howner
  · by_cases hj : j = k
    · subst hj
      rw [owned_write] at he
      obtain ⟨old, hold, rfl⟩ := List.mem_map.1 he
      rw [if_pos (h.own j old hold).1]
      exact ⟨(h.own j old hold).1, inst, hdata⟩
    · exact h.own j e (howned j hj ▸ he)

include hplan in
/-- **One request.** What the other servers own, and what lasts, stays. -/
theorem Tended.request (h : Tended plan legal lib s.tree) {c : ClientCmd} (hc : Aims plan lib k c) :
    Advances plan legal lib k s.tree (ZooKeeper.handler legal k c s).2.tree := by
  have hpath := cString_path hplan k
  cases c with
  | isConnected => exact .refl h
  | «exists» path => exact .refl h
  | create path data ephemeral =>
      rw [ZooKeeper.handler]
      split
      · rcases zooCreate_cases legal k path data ephemeral s.tree with
          ⟨hvalid, hparent, hfresh, hpersistent, hrun⟩ | ⟨-, -, hrun⟩ | ⟨code, -, -, hrun, -⟩
        · rw [hrun]
          exact h.create hplan hc hvalid hparent hfresh hpersistent
        · rw [hrun]
          exact .refl h
        · rw [hrun]
          exact .refl h
      · exact .refl h
  | delete path =>
      obtain rfl : path = plan.path k := hc
      rw [ZooKeeper.handler]
      split
      · rcases zooDelete_cases legal (plan.path k) s.tree with ⟨-, hrun⟩ | ⟨code, hrun⟩
        · rw [hrun, hpath]
          exact h.erase hplan k
        · rw [hrun]
          exact .refl h
      · exact .refl h
  | set path data =>
      obtain ⟨rfl, inst, hdata⟩ := hc
      rw [ZooKeeper.handler]
      split
      · rcases zooSet_cases legal (plan.path k) data s.tree with
          ⟨hvalid, hpresent, hnode, -⟩ | ⟨-, -, hrun⟩ | ⟨code, -, hrun, -⟩
        · rw [hpath] at hvalid hpresent hnode
          rcases Tree.present_iff.1 hpresent with hempty | hroot | ⟨e, he, hepath⟩
          · rw [hempty] at hvalid
            cases hvalid
          · exact absurd hroot (path_ne_root hplan k)
          · exact absurd hepath (Tree.node_eq_none_iff.1 hnode e he)
        · rw [hrun, hpath]
          exact h.write hplan hdata
        · rw [hrun]
          exact .refl h
      · exact .refl h

/-- The nodes of a session have no nodes below them, so that its end leaves every parent there. -/
theorem wellFormed_endSession (h : WellFormed legal t) (k : Nat) : WellFormed legal (endSession k t) := by
  have hsub : ∀ e ∈ endSession k t, e ∈ t := fun e he => List.mem_of_mem_filter he
  refine ⟨(List.filter_sublist.map _).nodup h.distinct, fun e he => h.accepted e (hsub e he), fun e he => ?_,
    fun e he howner => ?_, fun e he => h.notRoot e (hsub e he)⟩
  · rcases Tree.present_iff.1 (h.rooted e (hsub e he)) with hempty | hroot | ⟨parent, hparent, hpath⟩
    · exact Tree.present_iff.2 (.inl hempty)
    · exact Tree.present_iff.2 (.inr (.inl hroot))
    · refine Tree.present_iff.2 (.inr (.inr ⟨parent, List.mem_filter.2 ⟨hparent, decide_eq_true ?_⟩, hpath⟩))
      intro howner
      have hleaf := h.leaf parent hparent (by rw [howner]; rfl)
      exact Tree.hasChildren_eq_false_iff.1 hleaf e (hsub e he) hpath.symm
  · exact Tree.hasChildren_eq_false_iff.2 fun e' he' =>
      Tree.hasChildren_eq_false_iff.1 (h.leaf e (hsub e he) howner) e' (hsub e' he')

theorem owned_endSession (j k : Nat) (t : Tree) : owned j (endSession k t) = if j = k then [] else owned j t := by
  rw [owned, endSession, List.filter_filter]
  split
  · rename_i h
    refine List.filter_eq_nil_iff.2 fun e _ => ?_
    simp [h]
  · rename_i h
    refine List.filter_congr fun e _ => ?_
    by_cases howner : e.2.owner = some j
    · simp [howner, h]
    · simp [howner]

theorem Tended.endSession (h : Tended plan legal lib t) (k : Nat) :
    Advances plan legal lib k t (endSession k t) := by
  refine ⟨⟨wellFormed_endSession h.wellFormed k, fun e he => h.bare e (List.mem_of_mem_filter he), fun j e he => ?_⟩,
    fun j hj => (owned_endSession j k t).trans (if_neg hj),
    fun path ⟨e, he, hpath, howner⟩ => ⟨e, List.mem_filter.2 ⟨he, by rw [howner]; rfl⟩, hpath, howner⟩⟩
  obtain ⟨hmem, howner⟩ := mem_owned.1 he
  exact h.own j e (mem_owned.2 ⟨List.mem_of_mem_filter hmem, howner⟩)

/-- The others can rely on it. -/
theorem Advances.rely (h : Advances plan legal lib k t t') (hj : j ≠ k) :
    Rely plan legal lib j ⟨t, true⟩ ⟨t', true⟩ := ⟨id, fun _ => h.tended, h.owned j hj, h.lasting⟩

end Frame

end AccountService.Fleet
