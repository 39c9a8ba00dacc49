import AccountService.PathAgreement

/-! The nodes that a registry leaves on the server, over every sequence of its calls. It remembers one path:
a second registration under another path leaves the first node behind, and an update with another address
leaves the node with data that does not fit its path. -/

namespace AccountService

open Interaction ZooKeeper

namespace ServiceInstance

variable {F : Type}

/-- A number that the parser has read back; one that is not negative is unsigned. -/
def parsedInt (n : Int32) : JsonValue F := if 0 ≤ n then .unsigned n.toInt64.toUInt64 else .integer n.toInt64

/-- The value that the parser makes of the text of an instance. -/
def parsedValue (inst : ServiceInstance) : JsonValue F :=
  .object [(ascii "host", .string inst.host), (ascii "instance_id", .string inst.instanceId),
    (ascii "metadata", .object (inst.metadata.map fun e => (e.1, .string e.2))),
    (ascii "port", parsedInt inst.port), (ascii "service_name", .string inst.serviceName),
    (ascii "weight", parsedInt inst.weight)]

theorem toUInt32_toInt64 (n : Int32) : n.toInt64.toUInt64.toUInt32.toInt32 = n := by
  refine Int32.toBitVec_inj.1 (BitVec.eq_of_getElem_eq fun i hi => ?_)
  show ((n.toBitVec.signExtend 64).setWidth 32)[i] = n.toBitVec[i]
  rw [BitVec.getElem_setWidth, BitVec.getLsbD_eq_getElem (by omega), BitVec.getElem_signExtend, dif_pos hi]

theorem getInt_parsedInt (lib : JsonLibrary F) (n : Int32) : (parsedInt n : JsonValue F).getInt lib = some n := by
  rw [parsedInt]
  split
  · rw [JsonValue.getInt, toUInt32_toInt64]
  · rw [JsonValue.getInt, Int32.toInt32_toInt64]

theorem getStringMap_strings (entries : List (Bytes × Bytes)) :
    (JsonValue.object (entries.map fun e => (e.1, .string e.2)) : JsonValue F).getStringMap = some entries := by
  rw [JsonValue.getStringMap]
  induction entries with
  | nil => rfl
  | cons e entries ih =>
      rw [List.map_cons, List.mapM_cons, ih]
      rfl

/-- What the parser reads back decodes to the instance. -/
theorem decoded_of_parsedValue {lib : JsonLibrary F} {text : Bytes} {inst : ServiceInstance}
    (h : lib.parse text = some inst.parsedValue) : decoded lib text = some inst := by
  have hname : (inst.parsedValue : JsonValue F).value JsonValue.getString (ascii "service_name") [] =
      some inst.serviceName := rfl
  have hid : (inst.parsedValue : JsonValue F).value JsonValue.getString (ascii "instance_id") [] =
      some inst.instanceId := rfl
  have hhost : (inst.parsedValue : JsonValue F).value JsonValue.getString (ascii "host") [] =
      some inst.host := rfl
  have hport : (inst.parsedValue : JsonValue F).value (JsonValue.getInt lib) (ascii "port") 0 =
      some inst.port := getInt_parsedInt lib inst.port
  have hweight : (inst.parsedValue : JsonValue F).value (JsonValue.getInt lib) (ascii "weight") 100 =
      some inst.weight := getInt_parsedInt lib inst.weight
  have hmetadata : (inst.parsedValue : JsonValue F).metadata = some inst.metadata :=
    getStringMap_strings inst.metadata
  have hfields : assignments lib inst.parsedValue = [some (.serviceName inst.serviceName),
      some (.instanceId inst.instanceId), some (.host inst.host), some (.port inst.port),
      some (.weight inst.weight), some (.metadata inst.metadata)] := by
    rw [assignments, hname, hid, hhost, hport, hweight, hmetadata]
    rfl
  rw [decoded, h]
  simp only [Option.bind_eq_bind, Option.bind_some, hfields]
  rfl

end ServiceInstance

namespace ServiceRegistry

inductive RegistryCall
  | register (inst : ServiceInstance)
  | update (inst : ServiceInstance)
  | unregister

/-- The instance of a call, if it has one. -/
def RegistryCall.instance? : RegistryCall → Option ServiceInstance
  | .register inst => some inst
  | .update inst => some inst
  | .unregister => none

/-- The server, and how many commands it has seen. -/
structure Crowd where
  server : Server
  turn : Nat

/-- The server and the registry, between two calls. -/
structure Site where
  crowd : Crowd
  registry : ServiceRegistry

/-- The nodes. -/
def Site.tree (site : Site) : Tree := site.crowd.server.tree

variable {F : Type} (legal : Bytes → Bool) (session : Nat) (others : Nat → Tree → Tree)
variable (lib : JsonLibrary F) (dump : JsonValue F → Option Bytes)

/-- The commands of the session; before each of them the other clients have done what they have to do. -/
def crowded : Handler Client Crowd := fun c w =>
  match handler legal session c { w.server with tree := others w.turn w.server.tree } with
  | (reply, server) => (reply, ⟨server, w.turn + 1⟩)

def call (r : ServiceRegistry) : RegistryCall → Program Client (Option Bool × ServiceRegistry)
  | .register inst => register dump inst r
  | .update inst => update dump inst r
  | .unregister => unregister r

/-- One call, from its first request to its last. -/
def step (site : Site) (c : RegistryCall) : Site :=
  match (call dump site.registry c).run (crowded legal session others) site.crowd with
  | ((_, registry), crowd) => ⟨crowd, registry⟩

def run (calls : List RegistryCall) (site : Site) : Site := calls.foldl (step legal session others dump) site

/-- The nodes that end with the session. -/
def owned (t : Tree) : Tree := t.filter (·.2.owner = some session)

/-- No stray nodes: a registry that is registered owns the node at its path and no other, and the data of the
node decodes to an instance of that path; one that is not owns none. -/
def Accounted (site : Site) : Prop :=
  if site.registry.registered then
    ∃ data inst, owned session site.tree = [(cString site.registry.currentPath, ⟨data, some session⟩)] ∧
      ServiceInstance.decoded lib data = some inst ∧
      buildInstancePath site.registry.rootPath inst = site.registry.currentPath
  else owned session site.tree = []

/-- The other clients keep the tree well-formed and do not touch the nodes of the registry: those that its session
owns, and those at the paths of its instances and of their services. -/
structure Apart (its : Bytes → Prop) (t t' : Tree) : Prop where
  wellFormed : WellFormed legal t'
  owned : owned session t' = owned session t
  node : ∀ p, its p → t'.node p = t.node p
  parent : ∀ p, its p → t'.node (parentPath p) = t.node (parentPath p)
  children : ∀ p, its p → t'.hasChildren p = t.hasChildren p

/-- The other clients are apart whenever they act. -/
def Distant (its : Bytes → Prop) : Prop :=
  ∀ n t, WellFormed legal t → Apart legal session its t (others n t)

/-- The paths of the instances of the calls. -/
def Its (rootPath : Bytes) (calls : List RegistryCall) (p : Bytes) : Prop :=
  ∃ c ∈ calls, ∃ inst ∈ c.instance?, p = cString (buildInstancePath rootPath inst)

/-- The condition on a call, in the state before it. A `Register` that can reach the server, of a valid
instance that has a text and a path that the server accepts: a registered registry is given its own path
again, and a free one a path that is not the root and has no nodes below it. An `Update` is given an instance
of the registered path. -/
def Disciplined (site : Site) : RegistryCall → Prop
  | .register inst =>
      inst.isValid → (inst.toJson dump).isSome →
        validPath legal (cString (buildInstancePath site.registry.rootPath inst)) →
          if site.registry.registered then
            cString (buildInstancePath site.registry.rootPath inst) = cString site.registry.currentPath
          else
            cString (buildInstancePath site.registry.rootPath inst) ≠ [slash] ∧
              site.tree.hasChildren (cString (buildInstancePath site.registry.rootPath inst)) = false
  | .update inst =>
      site.registry.registered → (inst.toJson dump).isSome →
        buildInstancePath site.registry.rootPath inst = site.registry.currentPath
  | .unregister => True

/-- Every call of the run meets the condition in the state before it. -/
def DisciplinedRun : List RegistryCall → Site → Prop
  | [], _ => True
  | c :: calls, site => Disciplined legal dump site c ∧ DisciplinedRun calls (step legal session others dump site c)

variable {legal : Bytes → Bool} {session : Nat} {others : Nat → Tree → Tree} {lib : JsonLibrary F}
variable {dump : JsonValue F → Option Bytes} {its : Bytes → Prop} {path data : Bytes} {t : Tree} {w w' : Crowd}

theorem owned_append (t : Tree) (path data : Bytes) :
    owned session (t ++ [(path, ⟨data, some session⟩)]) = owned session t ++ [(path, ⟨data, some session⟩)] := by
  simp [owned, List.filter_append]

theorem owned_erase (t : Tree) (path : Bytes) :
    owned session (t.filter (·.1 ≠ path)) = (owned session t).filter (·.1 ≠ path) := by
  rw [owned, owned, List.filter_filter, List.filter_filter]
  exact List.filter_congr fun e _ => Bool.and_comm _ _

theorem owned_write (t : Tree) (path data : Bytes) :
    owned session (t.write path data) = (owned session t : Tree).write path data := by
  rw [owned, owned, Tree.write, Tree.write, List.filter_map]
  congr 1
  refine List.filter_congr fun e _ => ?_
  rw [Function.comp_apply]
  split
  · rfl
  · rfl

/-- The one node of the session. -/
theorem node_of_owned (h : WellFormed legal t) (howned : owned session t = [(path, ⟨data, some session⟩)]) :
    (path, ⟨data, some session⟩) ∈ t ∧ validPath legal path ∧ path ≠ [slash] ∧ t.hasChildren path = false := by
  have hmem : (path, ⟨data, some session⟩) ∈ t := by
    have hself : (path, ⟨data, some session⟩) ∈ owned session t := howned ▸ List.mem_singleton.2 rfl
    exact List.mem_of_mem_filter hself
  exact ⟨hmem, h.accepted _ hmem, h.notRoot _ hmem rfl, h.leaf _ hmem rfl⟩

namespace Apart

variable {t' : Tree}

theorem present (h : Apart legal session its t t') (hits : its path) : t'.present path = t.present path := by
  rw [Tree.present, Tree.present, h.node path hits]

theorem vacant (h : Apart legal session its t t') (hits : its path) (hvacant : Vacant legal path t) :
    Vacant legal path t' := by
  refine ⟨h.wellFormed, (h.present hits).trans hvacant.fresh, ?_, ?_⟩
  · have hparent := hvacant.parent
    rwa [Tree.present, ← h.parent path hits] at hparent
  · have hpersistent := hvacant.persistent
    rwa [Tree.ephemeral, ← h.parent path hits] at hpersistent

end Apart

/-- What laying the service path leaves as it is: the nodes of the session, and which nodes are below a path
of the registry that is not shorter. -/
structure Kept (legal : Bytes → Bool) (session : Nat) (its : Bytes → Prop) (bound : Nat) (s s' : Server) : Prop where
  connected : s'.connected = s.connected
  wellFormed : WellFormed legal s'.tree
  owned : owned session s'.tree = owned session s.tree
  children : ∀ p, its p → bound ≤ p.length → s'.tree.hasChildren p = s.tree.hasChildren p

theorem Kept.apart {bound : Nat} {s s' : Server} (h : Kept legal session its bound s s') {t : Tree}
    (hothers : Apart legal session its s'.tree t) : Kept legal session its bound s { s' with tree := t } :=
  ⟨h.connected, hothers.wellFormed, hothers.owned.trans h.owned,
    fun p hp hlength => (hothers.children p hp).trans (h.children p hp hlength)⟩

theorem Kept.handler {bound : Nat} {s s' : Server} {c : ClientCmd} (hc : Lays bound c)
    (h : Kept legal session its bound s s') :
    Kept legal session its bound s (ZooKeeper.handler legal session c s').2 := by
  cases c with
  | isConnected => exact h
  | «exists» path => exact h
  | delete path => exact absurd hc id
  | set path data => exact absurd hc id
  | create path data ephemeral =>
      obtain ⟨rfl, hlength⟩ := hc
      rw [ZooKeeper.handler]
      split
      · rcases zooCreate_cases legal session path data false s'.tree with
          ⟨hvalid, hparent, hfresh, hpersistent, hrun⟩ | ⟨-, -, hrun⟩ | ⟨code, -, -, hrun, -⟩
        · rw [hrun]
          refine ⟨h.connected, h.wellFormed.insert hvalid hfresh hparent hpersistent, ?_, fun p hits hp => ?_⟩
          · rw [← h.owned, ServiceRegistry.owned, List.filter_append]
            exact List.append_nil _
          · rw [← h.children p hits hp, Tree.hasChildren, List.any_append]
            have hne : parentPath (cString path) ≠ p := fun heq => by
              have hlt := parentPath_length_lt hvalid
              rw [heq] at hlt
              omega
            rw [List.any_cons, decide_eq_false hne]
            exact Bool.or_false _
        · rw [hrun]
          exact h
        · rw [hrun]
          exact h
      · exact h

theorem run_kept {bound : Nat} {p : Program Client Bool} (w : Crowd) (hp : p.Uses (Lays bound))
    (hothers : Distant legal session others its) (h : WellFormed legal w.server.tree) :
    Kept legal session its bound w.server (p.run (crowded legal session others) w).2.server :=
  Program.run_invariant (crowded legal session others) (I := fun w' => Kept legal session its bound w.server w'.server)
    (fun _ hc w' hw => (hw.apart (hothers w'.turn _ hw.wellFormed)).handler hc) hp ⟨rfl, h, rfl, fun _ _ _ => rfl⟩

/-- `CreateNode` of an ephemeral node that, if it is there, has no nodes below it: it is made anew, or the session
keeps the nodes it has. -/
theorem run_createNode_ephemeral (data : Bytes)
    (hothers : Distant legal session others its) (hits : its (cString path)) (hw : w.server.connected)
    (h : WellFormed legal w.server.tree)
    (hleaf : validPath legal (cString path) →
      cString path ≠ [slash] ∧ w.server.tree.hasChildren (cString path) = false) :
    ∃ created t turn, (createNode path data true).run (crowded legal session others) w = (created, ⟨⟨t, true⟩, turn⟩) ∧
      WellFormed legal t ∧
      (created = true ∧ validPath legal (cString path) ∧ owned session t =
          (owned session w.server.tree).filter (·.1 ≠ cString path) ++ [(cString path, ⟨data, some session⟩)] ∨
        created = false ∧ owned session t = owned session w.server.tree) := by
  obtain ⟨⟨tree, connected⟩, n⟩ := w
  obtain rfl : connected = true := hw
  have h₁ := hothers n tree h
  generalize ht₁ : others n tree = t₁ at h₁
  have h₂ := hothers (n + 1) t₁ h₁.wellFormed
  generalize ht₂ : others (n + 1) t₁ = t₂ at h₂
  have howned : owned session t₂ = owned session tree := h₂.owned.trans h₁.owned
  rcases zooCreate_cases legal session path data true t₂ with
    ⟨hvalid, hparent, hfresh, hpersistent, hrun⟩ | ⟨hvalid, hpresent, hrun⟩ | ⟨code, hok, hexists, hrun, -⟩
  · refine ⟨true, _, n + 2, by simp [createNode, crowded, handler, ht₁, ht₂, hrun]; rfl,
      h₂.wellFormed.insert hvalid hfresh hparent hpersistent, .inl ⟨rfl, hvalid, ?_⟩⟩
    have habsent := Tree.node_eq_none_iff.1 (Tree.node_of_not_present hfresh)
    show owned session (t₂ ++ [(cString path, ⟨data, some session⟩)]) =
      (owned session tree).filter (·.1 ≠ cString path) ++ [(cString path, ⟨data, some session⟩)]
    have hkeep : (owned session t₂).filter (·.1 ≠ cString path) = owned session t₂ :=
      List.filter_eq_self.2 fun e he => decide_eq_true (habsent e (List.mem_of_mem_filter he))
    rw [owned_append, ← howned, hkeep]
  · obtain ⟨hroot, hchildren⟩ := hleaf hvalid
    have h₃ := hothers (n + 2) t₂ h₂.wellFormed
    generalize ht₃ : others (n + 2) t₂ = t₃ at h₃
    have h₄ := hothers (n + 3) t₃ h₃.wellFormed
    generalize ht₄ : others (n + 3) t₃ = t₄ at h₄
    have hpresent₄ : t₄.present (cString path) = true := calc
      t₄.present (cString path) = t₃.present (cString path) := h₄.present hits
      _ = t₂.present (cString path) := h₃.present hits
      _ = true := hpresent
    have hchildren₄ : t₄.hasChildren (cString path) = false := calc
      t₄.hasChildren (cString path) = t₃.hasChildren (cString path) := h₄.children _ hits
      _ = t₂.hasChildren (cString path) := h₃.children _ hits
      _ = t₁.hasChildren (cString path) := h₂.children _ hits
      _ = tree.hasChildren (cString path) := h₁.children _ hits
      _ = false := hchildren
    obtain ⟨hdelete, hvacant⟩ := h₄.wellFormed.vacate hvalid hpresent₄ hroot hchildren₄
    have howned₄ : owned session (t₄.filter (·.1 ≠ cString path)) =
        (owned session tree).filter (·.1 ≠ cString path) := by
      rw [owned_erase, h₄.owned, h₃.owned, howned]
    generalize t₄.filter (·.1 ≠ cString path) = erased at hdelete hvacant howned₄
    have h₅ := hothers (n + 4) erased hvacant.wellFormed
    generalize ht₅ : others (n + 4) erased = t₅ at h₅
    obtain ⟨hcreate, hwellFormed⟩ := (h₅.vacant hits hvacant).create session data hvalid
    refine ⟨true, _, n + 5, ?_, hwellFormed, .inl ⟨rfl, hvalid, ?_⟩⟩
    · simp [createNode, recoverNode, deleteNode, crowded, handler, ht₁, ht₂, ht₃, ht₄, ht₅, hrun, hdelete, hcreate]
    · rw [owned_append, h₅.owned, howned₄]
  · exact ⟨false, t₂, n + 2, by simp [createNode, crowded, handler, ht₁, ht₂, hrun, hok, hexists], h₂.wellFormed,
      .inr ⟨rfl, howned⟩⟩

variable (legal session lib) in
/-- What the calls keep. -/
structure Tidy (rootPath : Bytes) (site : Site) : Prop where
  connected : site.crowd.server.connected
  root : site.registry.rootPath = rootPath
  wellFormed : WellFormed legal site.tree
  accounted : Accounted session lib site

variable {rootPath : Bytes} {r : ServiceRegistry} {inst : ServiceInstance}

theorem accounted_iff (hr : r.registered) :
    Accounted session lib ⟨w, r⟩ ↔ ∃ data inst, owned session w.server.tree =
        [(cString r.currentPath, ⟨data, some session⟩)] ∧
      ServiceInstance.decoded lib data = some inst ∧ buildInstancePath r.rootPath inst = r.currentPath := by
  rw [Accounted, if_pos hr]
  rfl

theorem accounted_free_iff (hr : r.registered = false) :
    Accounted session lib ⟨w, r⟩ ↔ owned session w.server.tree = [] := by
  rw [Accounted, if_neg (by simp [hr])]
  rfl

theorem Accounted.congr (h : Accounted session lib ⟨w, r⟩)
    (howned : owned session w'.server.tree = owned session w.server.tree) : Accounted session lib ⟨w', r⟩ := by
  rw [Accounted, Site.tree] at h ⊢
  rw [howned]
  exact h

theorem Tidy.unregister (hothers : Distant legal session others its) (h : Tidy legal session lib rootPath ⟨w, r⟩) :
    Tidy legal session lib rootPath (step legal session others dump ⟨w, r⟩ .unregister) := by
  cases hr : r.registered with
  | false => simpa [step, call, ServiceRegistry.unregister, hr] using h
  | true =>
      obtain ⟨⟨tree, connected⟩, n⟩ := w
      obtain rfl : connected = true := h.connected
      obtain ⟨data, inst, howned, -, -⟩ := (accounted_iff hr).1 h.accounted
      have h₁ := hothers n tree h.wellFormed
      generalize ht₁ : others n tree = t₁ at h₁
      have h₂ := hothers (n + 1) t₁ h₁.wellFormed
      generalize ht₂ : others (n + 1) t₁ = t₂ at h₂
      have howned₂ : owned session t₂ = [(cString r.currentPath, ⟨data, some session⟩)] := calc
        owned session t₂ = owned session t₁ := h₂.owned
        _ = owned session tree := h₁.owned
        _ = [(cString r.currentPath, ⟨data, some session⟩)] := howned
      obtain ⟨hmem, hvalid, hroot, hchildren⟩ := node_of_owned h₂.wellFormed howned₂
      obtain ⟨hdelete, hvacant⟩ :=
        h₂.wellFormed.vacate hvalid (Tree.present_of_mem hmem) hroot hchildren
      have herased : owned session (t₂.filter (·.1 ≠ cString r.currentPath)) = [] := by
        rw [owned_erase, howned₂, List.filter_cons_of_neg (by simp), List.filter_nil]
      generalize t₂.filter (·.1 ≠ cString r.currentPath) = erased at hdelete hvacant herased
      have hrun : step legal session others dump ⟨⟨⟨tree, true⟩, n⟩, r⟩ .unregister =
          ⟨⟨⟨erased, true⟩, n + 2⟩, { r with registered := false, currentPath := [] }⟩ := by
        simp [step, call, ServiceRegistry.unregister, hr, deleteNode, crowded, handler, ht₁, ht₂, hdelete]
      rw [hrun]
      exact ⟨rfl, h.root, hvacant.wellFormed, (accounted_free_iff rfl).2 herased⟩

theorem Tidy.update (hothers : Distant legal session others its) (h : Tidy legal session lib rootPath ⟨w, r⟩)
    (hparse : ∀ text, inst.toJson dump = some text → lib.parse text = some inst.parsedValue)
    (hcall : Disciplined legal dump ⟨w, r⟩ (.update inst)) :
    Tidy legal session lib rootPath (step legal session others dump ⟨w, r⟩ (.update inst)) := by
  cases hr : r.registered with
  | false => simpa [step, call, ServiceRegistry.update, hr] using h
  | true =>
      obtain ⟨⟨tree, connected⟩, n⟩ := w
      obtain rfl : connected = true := h.connected
      obtain ⟨data, inst', howned, hdecoded, hpath⟩ := (accounted_iff hr).1 h.accounted
      have h₁ := hothers n tree h.wellFormed
      generalize ht₁ : others n tree = t₁ at h₁
      cases htext : inst.toJson dump with
      | none =>
          have hrun : step legal session others dump ⟨⟨⟨tree, true⟩, n⟩, r⟩ (.update inst) =
              ⟨⟨⟨t₁, true⟩, n + 1⟩, r⟩ := by
            simp [step, call, ServiceRegistry.update, hr, crowded, handler, ht₁, htext]
          rw [hrun]
          exact ⟨rfl, h.root, h₁.wellFormed, h.accounted.congr h₁.owned⟩
      | some text =>
          have h₂ := hothers (n + 1) t₁ h₁.wellFormed
          generalize ht₂ : others (n + 1) t₁ = t₂ at h₂
          have h₃ := hothers (n + 2) t₂ h₂.wellFormed
          generalize ht₃ : others (n + 2) t₂ = t₃ at h₃
          have howned₃ : owned session t₃ = [(cString r.currentPath, ⟨data, some session⟩)] := calc
            owned session t₃ = owned session t₂ := h₃.owned
            _ = owned session t₁ := h₂.owned
            _ = owned session tree := h₁.owned
            _ = [(cString r.currentPath, ⟨data, some session⟩)] := howned
          obtain ⟨hmem, hvalid, -, -⟩ := node_of_owned h₃.wellFormed howned₃
          have hset : zooSet legal r.currentPath text t₃ = (.ok, t₃.write (cString r.currentPath) text) := by
            simp [zooSet, hvalid, Tree.present_of_mem hmem, Tree.node_of_mem h₃.wellFormed.distinct hmem]
          have hrun : step legal session others dump ⟨⟨⟨tree, true⟩, n⟩, r⟩ (.update inst) =
              ⟨⟨⟨t₃.write (cString r.currentPath) text, true⟩, n + 3⟩, r⟩ := by
            simp [step, call, ServiceRegistry.update, hr, crowded, handler, ht₁, ht₂, ht₃, htext, setData, hset]
          rw [hrun]
          refine ⟨rfl, h.root, h₃.wellFormed.write _ _, (accounted_iff hr).2 ⟨text, inst, ?_,
            ServiceInstance.decoded_of_parsedValue (hparse text htext), hcall hr (by rw [htext]; rfl)⟩⟩
          show owned session (t₃.write (cString r.currentPath) text) = _
          rw [owned_write, howned₃]
          simp [Tree.write]

/-- The path that a registration may use, behind the service path. -/
theorem Tidy.usable {bound : Nat} {s : Server} (h : Tidy legal session lib rootPath ⟨w, r⟩)
    (hkept : Kept legal session its bound w.server s)
    (hits : its (cString (buildInstancePath r.rootPath inst)))
    (hbound : (buildServicePath r.rootPath inst.serviceName).head? = some slash →
      bound = (cString (buildServicePath r.rootPath inst.serviceName)).length)
    (hvalid : validPath legal (cString (buildInstancePath r.rootPath inst)))
    (hpath : if r.registered then
        cString (buildInstancePath r.rootPath inst) = cString r.currentPath
      else cString (buildInstancePath r.rootPath inst) ≠ [slash] ∧
        w.server.tree.hasChildren (cString (buildInstancePath r.rootPath inst)) = false) :
    cString (buildInstancePath r.rootPath inst) ≠ [slash] ∧
      s.tree.hasChildren (cString (buildInstancePath r.rootPath inst)) = false := by
  have hglue : buildInstancePath r.rootPath inst =
      buildServicePath r.rootPath inst.serviceName ++ slash :: inst.getAddress := buildInstancePath_eq rfl
  have hlength : bound ≤ (cString (buildInstancePath r.rootPath inst)).length := by
    have hhead : (buildServicePath r.rootPath inst.serviceName).head? = some slash := by
      have hinstance := head?_of_validPath hvalid
      rw [hglue, List.head?_append_of_ne_nil _ (by simp [buildServicePath])] at hinstance
      exact hinstance
    rw [hbound hhead, hglue]
    exact cString_length_le_append _ _
  rw [hkept.children _ hits hlength]
  cases hr : r.registered with
  | false => simpa only [hr, Bool.false_eq_true, if_false] using hpath
  | true =>
      rw [hr, if_pos rfl] at hpath
      obtain ⟨data, inst', howned, -, -⟩ := (accounted_iff hr).1 h.accounted
      obtain ⟨-, -, hroot, hchildren⟩ := node_of_owned h.wellFormed howned
      rw [hpath]
      exact ⟨hroot, hchildren⟩

/-- Apart from that path, the session has no node. -/
theorem Tidy.elsewhere {free : Prop} (h : Tidy legal session lib rootPath ⟨w, r⟩)
    (hpath : if r.registered then path = cString r.currentPath else free) :
    (owned session w.server.tree).filter (·.1 ≠ path) = [] := by
  cases hr : r.registered with
  | false => rw [(accounted_free_iff hr).1 h.accounted, List.filter_nil]
  | true =>
      rw [hr, if_pos rfl] at hpath
      obtain ⟨data, inst, howned, -⟩ := (accounted_iff hr).1 h.accounted
      rw [howned, hpath, List.filter_cons_of_neg (by simp), List.filter_nil]

theorem Tidy.register (hothers : Distant legal session others its) (h : Tidy legal session lib rootPath ⟨w, r⟩)
    (hits : its (cString (buildInstancePath r.rootPath inst)))
    (hparse : ∀ text, inst.toJson dump = some text → lib.parse text = some inst.parsedValue)
    (hcall : Disciplined legal dump ⟨w, r⟩ (.register inst)) :
    Tidy legal session lib rootPath (step legal session others dump ⟨w, r⟩ (.register inst)) := by
  obtain ⟨⟨tree, connected⟩, n⟩ := w
  obtain rfl : connected = true := h.connected
  have h₁ := hothers n tree h.wellFormed
  generalize ht₁ : others n tree = t₁ at h₁
  have hafter : Tidy legal session lib rootPath ⟨⟨⟨t₁, true⟩, n + 1⟩, r⟩ :=
    ⟨rfl, h.root, h₁.wellFormed, h.accounted.congr h₁.owned⟩
  cases hinst : inst.isValid with
  | false =>
      have hrun : step legal session others dump ⟨⟨⟨tree, true⟩, n⟩, r⟩ (.register inst) =
          ⟨⟨⟨t₁, true⟩, n + 1⟩, r⟩ := by
        simp [step, call, ServiceRegistry.register, crowded, handler, ht₁, hinst]
      rw [hrun]
      exact hafter
  | true =>
      obtain ⟨bound, hlays, hbound⟩ := createServicePath_lays (buildServicePath r.rootPath inst.serviceName)
      have hkept : Kept legal session its bound ⟨t₁, true⟩
          ((createServicePath (buildServicePath r.rootPath inst.serviceName)).run (crowded legal session others)
            ⟨⟨t₁, true⟩, n + 1⟩).2.server := run_kept ⟨⟨t₁, true⟩, n + 1⟩ hlays hothers h₁.wellFormed
      generalize hlaid : (createServicePath (buildServicePath r.rootPath inst.serviceName)).run
        (crowded legal session others) ⟨⟨t₁, true⟩, n + 1⟩ = laid at hkept
      obtain ⟨created, ⟨s, m⟩⟩ := laid
      -- with the service path laid and nothing else done
      have hunchanged : Tidy legal session lib rootPath ⟨⟨s, m⟩, r⟩ :=
        ⟨hkept.connected, h.root, hkept.wellFormed, hafter.accounted.congr hkept.owned⟩
      cases created with
      | false =>
          simpa [step, call, ServiceRegistry.register, crowded, handler, ht₁, hinst, hlaid] using hunchanged
      | true =>
          cases htext : inst.toJson dump with
          | none =>
              simpa [step, call, ServiceRegistry.register, crowded, handler, ht₁, hinst, hlaid, htext]
                using hunchanged
          | some text =>
              have hpath : validPath legal (cString (buildInstancePath r.rootPath inst)) →
                  if r.registered then
                    cString (buildInstancePath r.rootPath inst) = cString r.currentPath
                  else cString (buildInstancePath r.rootPath inst) ≠ [slash] ∧
                    t₁.hasChildren (cString (buildInstancePath r.rootPath inst)) = false := fun hvalid => by
                rw [h₁.children _ hits]
                exact hcall hinst (by rw [htext]; rfl) hvalid
              obtain ⟨created, t, turn, hrun, hwellFormed, hcreated⟩ := run_createNode_ephemeral text hothers hits
                hunchanged.connected hunchanged.wellFormed
                fun hvalid => hafter.usable hkept hits hbound hvalid (hpath hvalid)
              rcases hcreated with ⟨rfl, hvalid, howned⟩ | ⟨rfl, howned⟩
              · have hregistered : step legal session others dump ⟨⟨⟨tree, true⟩, n⟩, r⟩ (.register inst) =
                    ⟨⟨⟨t, true⟩, turn⟩,
                      { r with currentPath := buildInstancePath r.rootPath inst, registered := true }⟩ := by
                  simp [step, call, ServiceRegistry.register, crowded, handler, ht₁, hinst, hlaid, htext, hrun]
                rw [hregistered]
                refine ⟨rfl, h.root, hwellFormed, (accounted_iff rfl).2 ⟨text, inst, ?_,
                  ServiceInstance.decoded_of_parsedValue (hparse text htext), rfl⟩⟩
                have hnone := hafter.elsewhere (hpath hvalid)
                rw [howned, hkept.owned, hnone, List.nil_append]
              · have hrefused : step legal session others dump ⟨⟨⟨tree, true⟩, n⟩, r⟩ (.register inst) =
                    ⟨⟨⟨t, true⟩, turn⟩, r⟩ := by
                  simp [step, call, ServiceRegistry.register, crowded, handler, ht₁, hinst, hlaid, htext, hrun]
                rw [hrefused]
                exact ⟨rfl, h.root, hwellFormed, hunchanged.accounted.congr howned⟩

/-- **One call.** -/
theorem Tidy.step {site : Site} (hothers : Distant legal session others its)
    (h : Tidy legal session lib rootPath site) (c : RegistryCall)
    (hits : ∀ inst ∈ c.instance?, its (cString (buildInstancePath rootPath inst)))
    (hparse : ∀ inst ∈ c.instance?, ∀ text, inst.toJson dump = some text → lib.parse text = some inst.parsedValue)
    (hcall : Disciplined legal dump site c) :
    Tidy legal session lib rootPath (step legal session others dump site c) := by
  cases c with
  | register inst =>
      have hpath := hits inst rfl
      rw [← h.root] at hpath
      exact h.register hothers hpath (hparse inst rfl) hcall
  | update inst => exact h.update hothers (hparse inst rfl) hcall
  | unregister => exact h.unregister hothers

theorem Tidy.run (hothers : Distant legal session others its) (calls : List RegistryCall) :
    ∀ {site : Site}, Tidy legal session lib rootPath site →
      (∀ c ∈ calls, ∀ inst ∈ c.instance?, its (cString (buildInstancePath rootPath inst)) ∧ ∀ text,
        inst.toJson dump = some text → lib.parse text = some inst.parsedValue) →
      DisciplinedRun legal session others dump calls site →
        Tidy legal session lib rootPath (run legal session others dump calls site) := by
  induction calls with
  | nil => exact fun h _ _ => h
  | cons c calls ih =>
      intro site h hinstances hcalls
      have hfirst := hinstances c List.mem_cons_self
      have hstep := h.step hothers c (fun inst hinst => (hfirst inst hinst).1) (fun inst hinst => (hfirst inst hinst).2)
        hcalls.1
      exact ih hstep (fun c hc => hinstances c (List.mem_cons_of_mem _ hc)) hcalls.2

theorem DisciplinedRun.left {after : List RegistryCall} : ∀ {before : List RegistryCall} {site : Site},
    DisciplinedRun legal session others dump (before ++ after) site →
      DisciplinedRun legal session others dump before site
  | [], _, _ => trivial
  | _ :: _, _, h => ⟨h.1, h.2.left⟩

/-- The server and the registry at the beginning. -/
def Site.fresh (rootPath : Bytes) (tree : Tree) : Site := ⟨⟨⟨tree, true⟩, 0⟩, { rootPath := rootPath }⟩

/-- **No stray nodes.** On a connected server with a well-formed tree in which the session has no nodes yet, a
registry whose calls all meet the condition has its one node and no other in every state between them, whatever
the other clients do elsewhere. The library's parser reads the texts of the instances back. -/
theorem accounted_of_disciplined (legal : Bytes → Bool) (session : Nat) (others : Nat → Tree → Tree)
    (lib : JsonLibrary F) (dump : JsonValue F → Option Bytes) (rootPath : Bytes) (tree : Tree)
    (calls : List RegistryCall) (htree : WellFormed legal tree) (hnew : ∀ e ∈ tree, e.2.owner ≠ some session)
    (hothers : Distant legal session others (Its rootPath calls))
    (hparse : ∀ c ∈ calls, ∀ inst ∈ c.instance?, ∀ text,
      inst.toJson dump = some text → lib.parse text = some inst.parsedValue)
    (hcalls : DisciplinedRun legal session others dump calls (.fresh rootPath tree)) :
    ∀ before, before <+: calls →
      Accounted session lib (run legal session others dump before (.fresh rootPath tree)) := by
  rintro before ⟨after, rfl⟩
  have hempty : owned session tree = [] := List.filter_eq_nil_iff.2 fun e he => by simpa using hnew e he
  have hstart : Tidy legal session lib rootPath (.fresh rootPath tree) :=
    ⟨rfl, rfl, htree, (accounted_free_iff rfl).2 hempty⟩
  refine (hstart.run hothers before (fun c hc inst hinst => ?_) hcalls.left).accounted
  have hmem := List.mem_append_left after hc
  exact ⟨⟨c, hmem, inst, hinst, rfl⟩, hparse c hmem inst hinst⟩

/-- The text of an instance of the service `user` on `10.0.0.1`. -/
def sampleText (port : Int) : Bytes :=
  ascii "\x7b\"host\":\"10.0.0.1\",\"instance_id\":\"1\",\"metadata\":\x7b\x7d,\"port\":" ++ toString port ++
    ascii ",\"service_name\":\"user\",\"weight\":100\x7d"

def sampleDump : JsonValue Empty → Option Bytes
  | .object [_, _, _, (_, .integer port), _, _] => some (sampleText port.toInt)
  | _ => none

/-- The instance on the next port. -/
def movedInstance : ServiceInstance := { sampleInstance with port := 50052 }

def sampleLibrary : JsonLibrary Empty where
  parse text :=
    if text = sampleText 50051 then some sampleInstance.parsedValue
    else if text = sampleText 50052 then some movedInstance.parsedValue
    else none
  truncate x := nomatch x

/-- The other clients do nothing. -/
def alone (_ : Nat) (t : Tree) : Tree := t

theorem alone_distant (legal : Bytes → Bool) (session : Nat) (its : Bytes → Prop) :
    Distant legal session alone its :=
  fun _ _ h => ⟨h, rfl, fun _ _ => rfl, fun _ _ => rfl, fun _ _ => rfl⟩

def freshSite : Site := .fresh (ascii "/services") []

/-- A registry that registers, updates, unregisters and registers another instance. -/
def sampleCalls : List RegistryCall :=
  [.register sampleInstance, .update sampleInstance, .unregister, .register movedInstance]

theorem accounted_of_disciplined_sample :
    Accounted 1 sampleLibrary (run (fun _ => true) 1 alone sampleDump (sampleCalls.take 2) freshSite) ∧
      Accounted 1 sampleLibrary (run (fun _ => true) 1 alone sampleDump sampleCalls freshSite) := by
  have hsample : ∀ text, sampleInstance.toJson sampleDump = some text →
      sampleLibrary.parse text = some sampleInstance.parsedValue := fun text h => by
    obtain rfl : sampleText 50051 = text := Option.some.inj h
    rfl
  have hmoved : ∀ text, movedInstance.toJson sampleDump = some text →
      sampleLibrary.parse text = some movedInstance.parsedValue := fun text h => by
    obtain rfl : sampleText 50052 = text := Option.some.inj h
    rfl
  have hparse : ∀ c ∈ sampleCalls, ∀ inst ∈ c.instance?, ∀ text,
      inst.toJson sampleDump = some text → sampleLibrary.parse text = some inst.parsedValue := by
    intro c hc inst hinst
    simp only [sampleCalls, List.mem_cons, List.not_mem_nil, or_false] at hc
    rcases hc with rfl | rfl | rfl | rfl
    · cases hinst
      exact hsample
    · cases hinst
      exact hsample
    · cases hinst
    · cases hinst
      exact hmoved
  have hcalls : DisciplinedRun (fun _ => true) 1 alone sampleDump sampleCalls freshSite := by
    refine ⟨fun _ _ _ => ?_, fun _ _ => ?_, trivial, fun _ _ _ => ?_, trivial⟩
    · decide +kernel
    · decide +kernel
    · decide +kernel
  have hrun := accounted_of_disciplined (fun _ => true) 1 alone sampleLibrary sampleDump
    (ascii "/services") [] sampleCalls (wellFormed_nil _) (fun e he => nomatch he) (alone_distant _ _ _) hparse hcalls
  exact ⟨hrun _ (List.take_prefix 2 sampleCalls), hrun _ List.prefix_rfl⟩

/-- A registry that has registered two instances, one after the other. -/
def registeredTwice : Site :=
  run (fun _ => true) 1 alone sampleDump [.register sampleInstance, .register movedInstance] freshSite

/-- The second node replaces nothing, and the first one stays behind. -/
theorem registeredTwice_strays : (owned 1 registeredTwice.tree).map Prod.fst =
      [ascii "/services/user/10.0.0.1:50051", ascii "/services/user/10.0.0.1:50052"] ∧
    ¬ Accounted 1 sampleLibrary registeredTwice := by
  have hpaths : (owned 1 registeredTwice.tree).map Prod.fst =
      [ascii "/services/user/10.0.0.1:50051", ascii "/services/user/10.0.0.1:50052"] := by decide +kernel
  have hregistered : registeredTwice.registry.registered = true := by decide +kernel
  refine ⟨hpaths, fun h => ?_⟩
  rw [Accounted, if_pos hregistered] at h
  obtain ⟨data, inst, howned, -, -⟩ := h
  rw [howned] at hpaths
  cases hpaths

end ServiceRegistry

end AccountService
