import AccountService.FleetFrame

/-! The calls of a server, with other servers at work between their requests: what a registry says about itself is
what its session has on the server, whenever it is not in the middle of a call. -/

namespace AccountService.Fleet

open Interaction ZooKeeper ServiceRegistry

section Requests

variable {F : Type} {plan : Plan} (hplan : plan.Proper) {legal : Bytes → Bool} {lib : JsonLibrary F}
variable {k : Nat} {s s' : Server} {owns : Tree} {data text : Bytes} {inst : ServiceInstance}

theorem setData_aims (hread : Reads plan lib k inst text) : (setData (plan.path k) text).Uses (Aims plan lib k) := by
  refine ⟨trivial, fun connected => ?_⟩
  cases connected with
  | false => trivial
  | true => exact ⟨⟨rfl, inst, hread⟩, fun _ => trivial⟩

variable (plan lib) in
theorem deleteNode_aims (k : Nat) : (deleteNode (plan.path k)).Uses (Aims plan lib k) := by
  refine ⟨trivial, fun connected => ?_⟩
  cases connected with
  | false => trivial
  | true => exact ⟨rfl, fun _ => trivial⟩

theorem createNode_aims (hread : Reads plan lib k inst text) :
    (createNode (plan.path k) text true).Uses (Aims plan lib k) := by
  have hcreate : Aims plan lib k (.create (plan.path k) text true) := ⟨rfl, inst, hread⟩
  have hrecover : (recoverNode (plan.path k) text).Uses (Aims plan lib k) := by
    refine (deleteNode_aims plan lib k).bind fun deleted => ?_
    cases deleted with
    | false => exact setData_aims hread
    | true =>
        refine ⟨hcreate, fun rc => ?_⟩
        cases rc with
        | ok => trivial
        | nodeExists | noNode | notEmpty | noChildrenForEphemerals | badArguments | connectionLoss =>
            exact setData_aims hread
  refine ⟨trivial, fun connected => ?_⟩
  cases connected with
  | false => trivial
  | true =>
      refine ⟨hcreate, fun rc => ?_⟩
      cases rc with
      | nodeExists => exact hrecover
      | ok | noNode | notEmpty | noChildrenForEphemerals | badArguments | connectionLoss => trivial

theorem Paves.aims {c : ClientCmd} (h : Paves (plan.servicePath k) c) : Aims plan lib k c := by
  cases c with
  | isConnected => trivial
  | «exists» path => trivial
  | create path data ephemeral =>
      obtain ⟨rfl, hdata, hpath⟩ := h
      exact ⟨hdata, (List.takeWhile_prefix _).trans hpath⟩
  | delete path => exact absurd h id
  | set path data => exact absurd h id

/-- The program returns with `Q`, whatever the other servers do between its requests. -/
abbrev Ends (plan : Plan) (legal : Bytes → Bool) (lib : JsonLibrary F) (k : Nat) {α : Type} (Q : α → Server → Prop)
    (p : Program Client α) (s : Server) : Prop :=
  p.Ensures (handler legal k) (Rely plan legal lib k) Q s

/-- The server, with the nodes that the session owns. -/
structure At (plan : Plan) (legal : Bytes → Bool) (lib : JsonLibrary F) (k : Nat) (owns : Tree) (s : Server) :
    Prop where
  connected : s.connected
  tended : Tended plan legal lib s.tree
  owned : owned k s.tree = owns

theorem At.rely (h : At plan legal lib k owns s) (hs : Rely plan legal lib k s s') : At plan legal lib k owns s' :=
  ⟨hs.connected h.connected, hs.tended h.tended, hs.owned.trans h.owned⟩

theorem ends_connected {α : Type} {Q : α → Server → Prop} {next : Bool → Program Client α}
    (h : At plan legal lib k owns s)
    (hnext : ∀ s', At plan legal lib k owns s' → Ends plan legal lib k Q (next true) s') :
    Ends plan legal lib k Q (.call .isConnected next) s := by
  intro s' hs
  have hat := h.rely hs
  show Ends plan legal lib k Q (next s'.connected) s'
  rw [hat.connected]
  exact hnext s' hat

include hplan in
theorem At.paves {c : ClientCmd} (hc : Paves (plan.servicePath k) c) (h : At plan legal lib k owns s) :
    At plan legal lib k owns (handler legal k c s).2 := by
  have haims : Aims plan lib k c := hc.aims
  have hadvances := h.tended.request hplan haims
  cases c with
  | isConnected => exact h
  | «exists» path => exact h
  | create path data ephemeral =>
      obtain ⟨rfl, -, -⟩ := hc
      refine ⟨(handler_connected legal k _ s).trans h.connected, hadvances.tended, ?_⟩
      rw [handler]
      split
      · rcases zooCreate_cases legal k path data false s.tree with
          ⟨-, -, -, -, hrun⟩ | ⟨-, -, hrun⟩ | ⟨code, -, -, hrun, -⟩
        · rw [hrun]
          exact (owned_create fun h => by cases h).trans h.owned
        · rw [hrun]
          exact h.owned
        · rw [hrun]
          exact h.owned
      · exact h.owned
  | delete path => exact absurd hc id
  | set path data => exact absurd hc id

include hplan in
theorem servicePath_paves (k : Nat) : (createServicePath (plan.servicePath k)).Uses (Paves (plan.servicePath k)) :=
  createServicePath_paves (head?_buildServicePath hplan.rooted)
    ((wellShaped_child_iff hplan.rooted (hplan.named k).2.1).2 ⟨hplan.shaped, (hplan.named k).1⟩)

include hplan in
theorem ends_createServicePath (h : At plan legal lib k owns s) :
    Ends plan legal lib k (fun _ s => At plan legal lib k owns s) (createServicePath (plan.servicePath k)) s :=
  Program.Ensures.invariant (servicePath_paves hplan k) h (fun _ hc _ hs => hs.paves hplan hc) fun hs => hs.rely

include hplan in
/-- The node of a session goes, and its place is left below one that lasts. -/
theorem Tended.zooDelete {t : Tree} (h : Tended plan legal lib t) {e : Bytes × Node} (he : e ∈ owned k t) :
    zooDelete legal (plan.path k) t = (.ok, t.filter (·.1 ≠ plan.path k)) ∧
      owned k (t.filter (·.1 ≠ plan.path k)) = [] ∧ Lasting (plan.servicePath k) (t.filter (·.1 ≠ plan.path k)) := by
  have hpath := (h.own k e he).1
  obtain ⟨hnode, howner⟩ := mem_owned.1 he
  have hvalid := h.wellFormed.accepted e hnode
  have hpresent := Tree.present_of_mem hnode
  have hparent := h.wellFormed.rooted e hnode
  rw [hpath] at hvalid hpresent
  rw [hpath, parentPath_path hplan] at hparent
  refine ⟨?_, ?_, ?_⟩
  · simp [ZooKeeper.zooDelete, cString_path hplan, hvalid, hpresent, path_ne_root hplan, h.childless hplan k]
  · rw [owned_erase]
    exact List.filter_eq_nil_iff.2 fun e he => by simpa using (h.own k e he).1
  · rcases Tree.present_iff.1 hparent with hempty | hroot | ⟨parent, hmem, hservice⟩
    · exact absurd hempty (servicePath_ne hplan k).1
    · exact absurd hroot (servicePath_ne hplan k).2
    · refine ⟨parent, List.mem_filter.2 ⟨hmem, decide_eq_true ?_⟩, hservice, ?_⟩
      · rw [hservice, Plan.path]
        exact fun heq => List.cons_ne_nil _ _ (List.self_eq_append_right.1 heq)
      · -- what has a child is persistent
        by_contra hsome
        have hleaf := h.wellFormed.leaf parent hmem (Option.isSome_iff_ne_none.2 hsome)
        refine Tree.hasChildren_eq_false_iff.1 hleaf e hnode ?_
        rw [hpath, parentPath_path hplan, hservice]

include hplan in
theorem ends_deleteNode (h : At plan legal lib k owns s) {e : Bytes × Node} (he : e ∈ owns) :
    Ends plan legal lib k (fun deleted s => deleted = true ∧ At plan legal lib k [] s ∧
      Lasting (plan.servicePath k) s.tree) (deleteNode (plan.path k)) s := by
  refine ends_connected h fun s₁ h₁ => fun s₂ hs₂ => ?_
  obtain ⟨t, connected⟩ := s₂
  have h₂ := h₁.rely hs₂
  obtain rfl : connected = true := h₂.connected
  obtain ⟨hdelete, howned, hlasting⟩ := h₂.tended.zooDelete hplan (h₂.owned ▸ he : e ∈ owned k t)
  have hrun : handler legal k (.delete (plan.path k)) ⟨t, true⟩ =
      (Code.ok, ⟨t.filter (·.1 ≠ plan.path k), true⟩) := by
    simp [handler, hdelete]
  rw [hrun]
  exact ⟨rfl, ⟨rfl, (h₂.tended.erase hplan k).tended, howned⟩, hlasting⟩

/-- The session has one node, that of its server. -/
def node (plan : Plan) (k : Nat) (data : Bytes) : Tree := [(plan.path k, ⟨data, some k⟩)]

include hplan in
theorem ends_setData (h : At plan legal lib k (node plan k data) s) (hread : Reads plan lib k inst text) :
    Ends plan legal lib k (fun updated s => updated = true ∧ At plan legal lib k (node plan k text) s)
      (setData (plan.path k) text) s := by
  refine ends_connected h fun s₁ h₁ => fun s₂ hs₂ => ?_
  obtain ⟨t, connected⟩ := s₂
  have h₂ := h₁.rely hs₂
  obtain rfl : connected = true := h₂.connected
  obtain ⟨hmem, hvalid, -, -⟩ := node_of_owned h₂.tended.wellFormed h₂.owned
  have hset : zooSet legal (plan.path k) text t = (.ok, t.write (plan.path k) text) := by
    simp [zooSet, cString_path hplan, hvalid, Tree.present_of_mem hmem,
      Tree.node_of_mem h₂.tended.wellFormed.distinct hmem]
  have hrun : handler legal k (.set (plan.path k) text) ⟨t, true⟩ =
      (Code.ok, ⟨t.write (plan.path k) text, true⟩) := by
    simp [handler, hset]
  rw [hrun]
  refine ⟨rfl, rfl, (h₂.tended.write hplan hread).tended, ?_⟩
  show owned k (t.write (plan.path k) text) = _
  have howned : owned k t = node plan k data := h₂.owned
  rw [owned_write, howned]
  simp [Tree.write, node]

include hplan in
/-- A `zoo_create` of the node of a server: it is made, it is there already, or it cannot be made. -/
theorem Tended.zooCreate {t : Tree} (h : Tended plan legal lib t) (hread : Reads plan lib k inst text) :
    (zooCreate legal k (plan.path k) text true t = (.ok, t ++ node plan k text) ∧
      Tended plan legal lib (t ++ node plan k text) ∧ owned k (t ++ node plan k text) = node plan k text) ∨
    (zooCreate legal k (plan.path k) text true t = (.nodeExists, t) ∧ ∃ e, e ∈ owned k t) ∨
    ∃ code, code ≠ .ok ∧ code ≠ .nodeExists ∧ zooCreate legal k (plan.path k) text true t = (code, t) ∧
      (validPath legal (plan.path k) = false ∨ t.present (plan.servicePath k) = false ∨
        t.ephemeral (plan.servicePath k)) := by
  have haims : Aims plan lib k (.create (plan.path k) text true) := ⟨rfl, inst, hread⟩
  have hpath := cString_path hplan k
  rcases zooCreate_cases legal k (plan.path k) text true t with
    ⟨hvalid, hparent, hfresh, hpersistent, hrun⟩ | ⟨hvalid, hpresent, hrun⟩ | ⟨code, hok, hexists, hrun, hwhy⟩
  · have hcreated := (h.create hplan haims hvalid hparent hfresh hpersistent).tended
    rw [if_pos rfl, hpath] at hcreated hrun
    rw [hpath] at hfresh
    refine .inl ⟨hrun, hcreated, ?_⟩
    have hnone : owned k t = [] := List.filter_eq_nil_iff.2 fun e he howner => by
      have hmem := mem_owned.2 ⟨he, of_decide_eq_true howner⟩
      exact Tree.node_eq_none_iff.1 (Tree.node_of_not_present hfresh) e he (h.own k e hmem).1
    rw [node, owned_append, hnone, List.nil_append]
  · rw [hpath] at hvalid hpresent
    refine .inr (.inl ⟨hrun, ?_⟩)
    rcases Tree.present_iff.1 hpresent with hempty | hroot | ⟨e, he, hepath⟩
    · rw [hempty] at hvalid
      cases hvalid
    · exact absurd hroot (path_ne_root hplan k)
    · exact ⟨e, mem_owned.2 ⟨he, h.owner_eq hplan he hepath⟩⟩
  · rw [hpath, parentPath_path hplan] at hwhy
    exact .inr (.inr ⟨code, hok, hexists, hrun, hwhy⟩)

include hplan in
/-- The recovery of `CreateNode` always makes the node anew. -/
theorem ends_recoverNode (h : At plan legal lib k owns s) {e : Bytes × Node} (he : e ∈ owns)
    (hread : Reads plan lib k inst text) :
    Ends plan legal lib k (fun created s => created = true ∧ At plan legal lib k (node plan k text) s)
      (recoverNode (plan.path k) text) s := by
  have hvalid : validPath legal (plan.path k) := by
    obtain ⟨hmem, -⟩ := mem_owned.1 (h.owned ▸ he : e ∈ owned k s.tree)
    rw [← (h.tended.own k e (h.owned ▸ he)).1]
    exact h.tended.wellFormed.accepted e hmem
  refine ((ends_deleteNode hplan h he).mono fun deleted s' hs' => ?_).bind
  obtain ⟨rfl, h₁, hlasting⟩ := hs'
  intro s₂ hs₂
  obtain ⟨t, connected⟩ := s₂
  have h₂ := h₁.rely hs₂
  obtain rfl : connected = true := h₂.connected
  rcases h₂.tended.zooCreate hplan hread with ⟨hrun, htended, howned⟩ | ⟨-, e, he⟩ | ⟨code, -, -, -, hwhy⟩
  · have hrun' : handler legal k (.create (plan.path k) text true) ⟨t, true⟩ =
        (Code.ok, ⟨t ++ node plan k text, true⟩) := by
      simp [handler, hrun]
    rw [hrun']
    exact ⟨rfl, rfl, htended, howned⟩
  · rw [h₂.owned] at he
    cases he
  · obtain ⟨parent, hmem, hparent, howner⟩ := hs₂.lasting _ hlasting
    rcases hwhy with hinvalid | habsent | hephemeral
    · rw [hvalid] at hinvalid
      cases hinvalid
    · rw [← hparent, Tree.present_of_mem hmem] at habsent
      cases habsent
    · rw [← hparent, Tree.ephemeral, Tree.node_of_mem h₂.tended.wellFormed.distinct hmem, Option.any_some, howner]
        at hephemeral
      cases hephemeral

include hplan in
theorem ends_createNode (h : At plan legal lib k owns s) (hread : Reads plan lib k inst text) :
    Ends plan legal lib k (fun created s => if created then At plan legal lib k (node plan k text) s
      else At plan legal lib k owns s) (createNode (plan.path k) text true) s := by
  refine ends_connected h fun s₁ h₁ => fun s₂ hs₂ => ?_
  obtain ⟨t, connected⟩ := s₂
  have h₂ := h₁.rely hs₂
  obtain rfl : connected = true := h₂.connected
  rcases h₂.tended.zooCreate hplan hread with
    ⟨hrun, htended, howned⟩ | ⟨hrun, e, he⟩ | ⟨code, hok, hexists, hrun, -⟩
  · have hrun' : handler legal k (.create (plan.path k) text true) ⟨t, true⟩ =
        (Code.ok, ⟨t ++ node plan k text, true⟩) := by
      simp [handler, hrun]
    rw [hrun']
    exact ⟨rfl, htended, howned⟩
  · have hrun' : handler legal k (.create (plan.path k) text true) ⟨t, true⟩ = (Code.nodeExists, ⟨t, true⟩) := by
      simp [handler, hrun]
    rw [hrun']
    rw [h₂.owned] at he
    refine (ends_recoverNode hplan h₂ he hread).mono fun created s' hs' => ?_
    obtain ⟨rfl, hs'⟩ := hs'
    exact hs'
  · have hrun' : handler legal k (.create (plan.path k) text true) ⟨t, true⟩ = (code, ⟨t, true⟩) := by
      simp [handler, hrun]
    rw [hrun']
    show Ends plan legal lib k _ (if code = .ok then _ else if code = .nodeExists then _ else _) _
    rw [if_neg hok, if_neg hexists]
    exact h₂

end Requests

section Calls

variable {F : Type} {plan : Plan} (hplan : plan.Proper) {legal : Bytes → Bool} {lib : JsonLibrary F}
variable {dump : JsonValue F → Option Bytes} {k : Nat} {t t' : Tree} {r : ServiceRegistry}
variable {before : Option ServiceInstance} {inst : ServiceInstance} {c : RegistryCall}

variable (plan lib) in
/-- Between its calls server `k` is out and has no nodes, or it is listed: it has one node, with the text of what it
has made known. -/
inductive Serves (k : Nat) (t : Tree) : ServiceRegistry → Option ServiceInstance → Prop
  | out (gone : owned k t = []) : Serves k t { rootPath := plan.rootPath } none
  | listed {inst : ServiceInstance} {text : Bytes} (reads : Reads plan lib k inst text)
      (stands : owned k t = node plan k text) :
      Serves k t { rootPath := plan.rootPath, currentPath := plan.path k, registered := true } (some inst)

theorem Serves.congr (h : Serves plan lib k t r before) (howned : owned k t' = owned k t) :
    Serves plan lib k t' r before := by
  cases h with
  | out gone => exact .out (howned.trans gone)
  | listed reads stands => exact .listed reads (howned.trans stands)

theorem Serves.rootPath_eq (h : Serves plan lib k t r before) : r.rootPath = plan.rootPath := by
  cases h with
  | out _ => rfl
  | listed _ _ => rfl

variable (plan lib dump) in
/-- The instance of a call is one of the server, and its text is read back. -/
def Fitting (k : Nat) (c : RegistryCall) : Prop :=
  ∀ inst ∈ c.instance?, ∀ text, inst.toJson dump = some text → Reads plan lib k inst text

variable (plan lib) in
/-- How a call is to end. -/
def Settles (k : Nat) (c : RegistryCall) (before : Option ServiceInstance) (outcome : Option Bool × ServiceRegistry)
    (s : Server) : Prop :=
  Serves plan lib k s.tree outcome.2 (publish c outcome.1 before)

include hplan in
theorem register_ends (h : Serves plan lib k t r before) (htended : Tended plan legal lib t)
    (hinst : plan.Describes k inst)
    (hread : ∀ text, inst.toJson dump = some text → Reads plan lib k inst text) :
    (register dump inst r).Uses (Aims plan lib k) ∧
      Ends plan legal lib k (Settles plan lib k (.register inst) before) (register dump inst r) ⟨t, true⟩ := by
  have hroot := h.rootPath_eq
  obtain ⟨root, current, registered⟩ := r
  obtain rfl : root = plan.rootPath := hroot
  have hpath := buildInstancePath_describes hinst
  have hservice : ServiceRegistry.buildServicePath plan.rootPath inst.serviceName = plan.servicePath k := by
    rw [hinst.name, Plan.servicePath]
  have hat : At plan legal lib k (owned k t) ⟨t, true⟩ := ⟨rfl, htended, rfl⟩
  have hstays : ∀ {s : Server}, At plan legal lib k (owned k t) s →
      Serves plan lib k s.tree ⟨plan.rootPath, current, registered⟩ before := fun hs => h.congr hs.owned
  simp only [register, isValid_describes hplan hinst, hservice, hpath, Bool.and_true]
  constructor
  · refine ⟨trivial, fun connected => ?_⟩
    cases connected with
    | false => trivial
    | true =>
        refine ((servicePath_paves hplan k).mono fun _ => Paves.aims).bind fun created => ?_
        cases created with
        | false => trivial
        | true =>
            cases htext : inst.toJson dump with
            | none => trivial
            | some text =>
                refine (createNode_aims (hread text htext)).bind fun created => ?_
                cases created with
                | false => trivial
                | true => trivial
  · refine ends_connected hat fun s₁ h₁ => ((ends_createServicePath hplan h₁).mono fun created s₂ h₂ => ?_).bind
    cases created with
    | false => exact hstays h₂
    | true =>
        cases htext : inst.toJson dump with
        | none => exact hstays h₂
        | some text =>
            refine ((ends_createNode hplan h₂ (hread text htext)).mono fun created s₃ h₃ => ?_).bind
            cases created with
            | false => exact hstays h₃
            | true => exact .listed (hread text htext) h₃.owned

include hplan in
theorem update_ends (h : Serves plan lib k t r before) (htended : Tended plan legal lib t)
    (hread : ∀ text, inst.toJson dump = some text → Reads plan lib k inst text) :
    (update dump inst r).Uses (Aims plan lib k) ∧
      Ends plan legal lib k (Settles plan lib k (.update inst) before) (update dump inst r) ⟨t, true⟩ := by
  cases h with
  | out gone => exact ⟨trivial, .out gone⟩
  | @listed inst' text' reads stands =>
      have hat : At plan legal lib k (node plan k text') ⟨t, true⟩ := ⟨rfl, htended, stands⟩
      constructor
      · refine ⟨trivial, fun connected => ?_⟩
        cases connected with
        | false => trivial
        | true =>
            cases htext : inst.toJson dump with
            | none => trivial
            | some text => exact (setData_aims (hread text htext)).bind fun _ => trivial
      · refine ends_connected hat fun s₁ h₁ => ?_
        cases htext : inst.toJson dump with
        | none => exact .listed reads h₁.owned
        | some text =>
            refine ((ends_setData hplan h₁ (hread text htext)).mono fun updated s₂ h₂ => ?_).bind
            obtain ⟨rfl, h₂⟩ := h₂
            exact .listed (hread text htext) h₂.owned

include hplan in
theorem unregister_ends (h : Serves plan lib k t r before) (htended : Tended plan legal lib t) :
    (unregister r).Uses (Aims plan lib k) ∧
      Ends plan legal lib k (Settles plan lib k .unregister before) (unregister r) ⟨t, true⟩ := by
  cases h with
  | out gone => exact ⟨trivial, .out gone⟩
  | @listed inst' text' reads stands =>
      have hat : At plan legal lib k (node plan k text') ⟨t, true⟩ := ⟨rfl, htended, stands⟩
      refine ⟨(deleteNode_aims plan lib k).bind fun _ => trivial, ?_⟩
      refine ((ends_deleteNode hplan hat (List.mem_singleton_self _)).mono fun deleted s₁ h₁ => ?_).bind
      exact .out h₁.2.1.owned

include hplan in
/-- **A call.** It asks for nothing that is not its server's, and settles, whatever the others do meanwhile. -/
theorem call_ends (h : Serves plan lib k t r before) (htended : Tended plan legal lib t)
    (hinst : ∀ inst ∈ c.instance?, plan.Describes k inst) (hc : Fitting plan lib dump k c) :
    (ServiceRegistry.call dump r c).Uses (Aims plan lib k) ∧
      Ends plan legal lib k (Settles plan lib k c before) (ServiceRegistry.call dump r c) ⟨t, true⟩ := by
  cases c with
  | register inst => exact register_ends hplan h htended (hinst inst rfl) (hc inst rfl)
  | update inst => exact update_ends hplan h htended (hc inst rfl)
  | unregister => exact unregister_ends hplan h htended

end Calls

section Steps

variable {F : Type} {plan : Plan} (hplan : plan.Proper) {legal : Bytes → Bool} {lib : JsonLibrary F}
variable {dump : JsonValue F → Option Bytes} {j k : Nat} {t t' : Tree} {m : Member} {s : System}

variable (plan legal lib) in
/-- A server between two calls serves; the rest of a call will settle. -/
def Member.InOrder (k : Nat) (t : Tree) (m : Member) : Prop :=
  match m.task with
  | none => Serves plan lib k t m.registry m.published
  | some (c, p) =>
      p.Uses (Aims plan lib k) ∧ Ends plan legal lib k (Settles plan lib k c m.published) p ⟨t, true⟩

variable (plan legal lib) in
/-- What the moves keep. -/
structure InOrder (s : System) : Prop where
  tended : Tended plan legal lib s.tree
  member : ∀ k, (s.member k).InOrder plan legal lib k s.tree

theorem Member.InOrder.rely (h : m.InOrder plan legal lib j t) (hrely : Rely plan legal lib j ⟨t, true⟩ ⟨t', true⟩) :
    m.InOrder plan legal lib j t' := by
  unfold Member.InOrder at h ⊢
  split
  · rename_i htask
    rw [htask] at h
    exact h.congr hrely.owned
  · rename_i c p htask
    rw [htask] at h
    exact ⟨h.1, h.2.rely Rely.trans (fun _ _ _ hsettled hs => Serves.congr hsettled hs.owned) hrely⟩

/-- A move of server `k`: its own part, and the tree as the others find it. -/
theorem InOrder.update (h : InOrder plan legal lib s) (hadvances : Advances plan legal lib k s.tree t')
    (hm : m.InOrder plan legal lib k t') : InOrder plan legal lib ⟨t', Function.update s.member k m⟩ := by
  refine ⟨hadvances.tended, fun j => ?_⟩
  by_cases hj : j = k
  · subst hj
    simpa only [Function.update_self] using hm
  · simpa only [Function.update_of_ne hj] using (h.member j).rely (hadvances.rely hj)

include hplan in
theorem InOrder.begins (h : InOrder plan legal lib s) {c : RegistryCall}
    (hinst : ∀ inst ∈ c.instance?, plan.Describes k inst) (hc : Fitting plan lib dump k c) :
    InOrder plan legal lib (step plan legal dump s (.begins k c)) := by
  have hmember := h.member k
  unfold Member.InOrder at hmember
  cases htask : (s.member k).task with
  | some task =>
      rw [step, htask]
      exact h
  | none =>
      rw [htask] at hmember
      have hcall := call_ends hplan hmember h.tended hinst hc
      rw [step, htask]
      exact h.update (.refl h.tended) hcall

include hplan in
theorem InOrder.advance (h : InOrder plan legal lib s) (k : Nat) :
    InOrder plan legal lib (step plan legal dump s (.advance k)) := by
  have hmember := h.member k
  unfold Member.InOrder at hmember
  cases htask : (s.member k).task with
  | none =>
      simp only [step, htask]
      exact h
  | some task =>
      obtain ⟨c, p⟩ := task
      rw [htask] at hmember
      obtain ⟨huses, hends⟩ := hmember
      cases p with
      | done outcome =>
          simp only [step, htask]
          exact h.update (.refl h.tended) hends
      | call cmd next =>
          simp only [step, htask]
          have hadvances := Tended.request hplan (s := ⟨s.tree, true⟩) h.tended huses.1
          have hrest := hends ⟨s.tree, true⟩ (.refl k _)
          have hconnected := handler_connected legal k cmd ⟨s.tree, true⟩
          generalize handler legal k cmd ⟨s.tree, true⟩ = answer at hadvances hrest hconnected
          obtain ⟨reply, ⟨tree, connected⟩⟩ := answer
          obtain rfl : connected = true := hconnected
          exact h.update hadvances ⟨huses.2 reply, hrest⟩

theorem InOrder.expire (h : InOrder plan legal lib s) (k : Nat) :
    InOrder plan legal lib (step plan legal dump s (.expire k)) := by
  refine h.update (h.tended.endSession k) ?_
  exact .out ((owned_endSession k k s.tree).trans (if_pos rfl))

include hplan in
/-- **Any run.** -/
theorem InOrder.run (moves : List Move) (h : InOrder plan legal lib s) (hmoves : ∀ m ∈ moves, Permitted plan dump m)
    (hparse : ∀ m ∈ moves, ∀ inst ∈ m.instance?, ∀ text, inst.toJson dump = some text →
      lib.parse text = some inst.parsedValue) : InOrder plan legal lib (run plan legal dump moves s) := by
  induction moves generalizing s with
  | nil => exact h
  | cons m moves ih =>
      refine ih ?_ (fun m' hm' => hmoves m' (List.mem_cons_of_mem _ hm'))
        fun m' hm' => hparse m' (List.mem_cons_of_mem _ hm')
      have hm := hmoves m List.mem_cons_self
      have hread := hparse m List.mem_cons_self
      cases m with
      | begins k c =>
          refine h.begins hplan (fun inst hinst => (hm inst hinst).1) fun inst hinst text htext => ?_
          exact ⟨(hm inst hinst).1, (hm inst hinst).2 text htext, hread inst hinst text htext⟩
      | advance k => exact h.advance hplan k
      | expire k => exact h.expire k

theorem inOrder_start : InOrder plan legal lib plan.start :=
  ⟨⟨wellFormed_nil legal, fun _ he => (nomatch he), fun _ _ he => (nomatch he)⟩, fun _ => .out rfl⟩

end Steps

end AccountService.Fleet
