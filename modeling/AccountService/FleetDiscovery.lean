import AccountService.RegistryFleet

/-! What a discovery client finds while servers come and go: for every server that is not in the middle of a call the
instance that it has made known, once, and nothing else of it. -/

namespace AccountService.Fleet

open Interaction ZooKeeper ServiceRegistry

section Found

variable {F : Type} {plan : Plan} (hplan : plan.Proper) {legal : Bytes → Bool} {lib : JsonLibrary F}
variable {dump : JsonValue F → Option Bytes} {t : Tree} {name path : Bytes} {e : Bytes × Node}

include hplan in
/-- The children of a service are the instances of its servers. -/
theorem Tended.child (h : Tended plan legal lib t) (he : e ∈ t)
    (hparent : parentPath e.1 = ServiceDiscovery.buildServicePath plan.rootPath name) :
    ∃ k, e ∈ owned k t ∧ plan.name k = name := by
  cases howner : e.2.owner with
  | none =>
      -- a node on the way to a service has no name below the root with a slash behind it
      obtain ⟨-, j, hj⟩ := h.bare e he howner
      obtain ⟨rest, hrest⟩ := parentPath_append (slash_mem_of_validPath (h.wellFormed.accepted e he))
      rw [hrest, hparent, ServiceDiscovery.buildServicePath, Plan.servicePath, ServiceRegistry.buildServicePath,
        List.append_assoc, List.prefix_append_right_inj, List.cons_append, List.cons_prefix_cons] at hj
      exact absurd (hj.2.subset (by simp)) (hplan.named j).2.1
  | some k =>
      have hmem : e ∈ owned k t := mem_owned.2 ⟨he, howner⟩
      refine ⟨k, hmem, ?_⟩
      rw [(h.own k e hmem).1, parentPath_path hplan, Plan.servicePath, ServiceRegistry.buildServicePath,
        ServiceDiscovery.buildServicePath] at hparent
      exact (List.cons.inj (List.append_cancel_left hparent)).2

theorem fromJson_of_parsedValue {text : Bytes} {inst : ServiceInstance} (h : lib.parse text = some inst.parsedValue)
    (garbage : Int32) : ServiceInstance.fromJson lib garbage text = inst := by
  have hdecoded := ServiceInstance.decoded_of_parsedValue h
  have hconverts : ServiceInstance.Converts (ServiceInstance.assignments lib inst.parsedValue) := by
    by_contra hthrows
    rw [(ServiceInstance.decoded_eq_none_iff h).2 hthrows] at hdecoded
    cases hdecoded
  rw [ServiceInstance.decoded_of_converts h hconverts garbage] at hdecoded
  exact Option.some.inj hdecoded

include hplan in
/-- What the discovery client reads in the node of a server. -/
theorem Tended.read (h : Tended plan legal lib t) (hempty : lib.parse [] = none) (garbage : Int32) {k : Nat}
    {inst : ServiceInstance} (he : e ∈ owned k t) (hparent : parentPath e.1 = path)
    (hread : Reads plan lib k inst e.2.data) :
    readInstance (ServiceInstance.decodeNode lib garbage) (childData t path (e.1.drop (path.length + 1))) =
      [inst] := by
  have hmem := (mem_owned.1 he).1
  obtain ⟨rest, hrest⟩ := parentPath_append (slash_mem_of_validPath (h.wellFormed.accepted e hmem))
  rw [hparent] at hrest
  have hends : cString e.1 = e.1 := by
    rw [(h.own k e he).1]
    exact cString_path hplan k
  have hchild : path ++ slash :: e.1.drop (path.length + 1) = e.1 := by
    rw [hrest, ← List.drop_drop, List.drop_left, List.drop_one, List.tail_cons]
  have hdata : childData t path (e.1.drop (path.length + 1)) = e.2.data := by
    rw [childData, hchild, hends, Tree.node_of_mem h.wellFormed.distinct hmem]
    exact List.take_of_length_le hread.fits
  have htext : e.2.data.isEmpty = false := by
    cases hcase : e.2.data with
    | nil =>
        have hparse := hread.parsed
        rw [hcase, hempty] at hparse
        cases hparse
    | cons c rest => rfl
  rw [hdata, readInstance, htext, ServiceInstance.decodeNode, fromJson_of_parsedValue hread.parsed,
    isValid_describes hplan hread.describes]
  rfl

/-- What a discovery client may find for a name, whatever the servers are in the middle of: no instance twice, only
instances of servers of that name, and of the servers that are not in the middle of a call exactly what they have
made known. -/
structure Lists (plan : Plan) (s : System) (name : Bytes) (instances : List ServiceInstance) : Prop where
  once : instances.Nodup
  known : ∀ inst ∈ instances, ∃ k, plan.name k = name ∧ plan.Describes k inst ∧
    ((s.member k).task = none → (s.member k).published = some inst)
  all : ∀ k inst, plan.name k = name → (s.member k).task = none → (s.member k).published = some inst →
    inst ∈ instances

variable {s : System}

include hplan in
theorem cString_servicePath (hname : 0 ∉ name) : cString (ServiceDiscovery.buildServicePath plan.rootPath name) =
    ServiceDiscovery.buildServicePath plan.rootPath name :=
  cString_of_not_mem (buildServicePath_ends hplan hname)

include hplan in
/-- The instances have the paths of the nodes, which are distinct. -/
theorem Tended.nodup (h : Tended plan legal lib t) (hempty : lib.parse [] = none) (garbage : Int32)
    (hname : 0 ∉ name) : (found (ServiceInstance.decodeNode lib garbage) t
      (ServiceDiscovery.buildServicePath plan.rootPath name)).Nodup := by
  rw [found_flatMap _ t (cString_servicePath hplan hname)]
  generalize hpath : ServiceDiscovery.buildServicePath plan.rootPath name = path
  have hpaths : ((t.filter (parentPath ·.1 = path)).flatMap fun e =>
      readInstance (ServiceInstance.decodeNode lib garbage)
        (childData t path (e.1.drop (path.length + 1)))).map (buildInstancePath plan.rootPath) =
      (t.filter (parentPath ·.1 = path)).map Prod.fst := by
    rw [List.map_flatMap, List.map_eq_flatMap (f := Prod.fst)]
    refine List.flatMap_congr fun e he => ?_
    obtain ⟨hmem, hparent⟩ := List.mem_filter.1 he
    have hparent := of_decide_eq_true hparent
    obtain ⟨k, hown, -⟩ := h.child hplan hmem (hparent.trans hpath.symm)
    obtain ⟨hat, inst, hread⟩ := h.own k e hown
    rw [h.read hplan hempty garbage hown hparent hread, List.map_singleton,
      buildInstancePath_describes hread.describes, hat]
  refine List.Nodup.of_map (buildInstancePath plan.rootPath) ?_
  rw [hpaths]
  exact (List.filter_sublist.map _).nodup h.wellFormed.distinct

include hplan in
theorem InOrder.lists (h : InOrder plan legal lib s) (hempty : lib.parse [] = none) (garbage : Int32)
    (name : Bytes) (hends : 0 ∉ name) : Lists plan s name (found (ServiceInstance.decodeNode lib garbage) s.tree
      (ServiceDiscovery.buildServicePath plan.rootPath name)) := by
  refine ⟨h.tended.nodup hplan hempty garbage hends, fun inst hinst => ?_, fun k inst hname hidle hpublished => ?_⟩
  · rw [found_flatMap _ s.tree (cString_servicePath hplan hends)] at hinst
    obtain ⟨e, he, hmem⟩ := List.mem_flatMap.1 hinst
    obtain ⟨hnode, hparent⟩ := List.mem_filter.1 he
    have hparent := of_decide_eq_true hparent
    obtain ⟨k, hown, hname⟩ := h.tended.child hplan hnode hparent
    obtain ⟨-, inst', hread⟩ := h.tended.own k e hown
    rw [h.tended.read hplan hempty garbage hown hparent hread] at hmem
    obtain rfl := List.mem_singleton.1 hmem
    refine ⟨k, hname, hread.describes, fun hidle => ?_⟩
    have hmember := h.member k
    rw [Member.InOrder, hidle] at hmember
    generalize (s.member k).registry = r at hmember
    generalize (s.member k).published = before at hmember ⊢
    cases hmember with
    | out gone =>
        rw [gone] at hown
        cases hown
    | @listed inst' text reads stands =>
        rw [stands] at hown
        obtain rfl := List.mem_singleton.1 hown
        rw [← fromJson_of_parsedValue reads.parsed garbage, ← fromJson_of_parsedValue hread.parsed garbage]
  · have hmember := h.member k
    rw [Member.InOrder, hidle, hpublished] at hmember
    generalize (s.member k).registry = r at hmember
    cases hmember with
    | @listed inst text reads stands =>
        have hmem : (plan.path k, ⟨text, some k⟩) ∈ s.tree := (node_of_owned h.tended.wellFormed stands).1
        have hparent : parentPath (plan.path k) = ServiceDiscovery.buildServicePath plan.rootPath name := by
          rw [parentPath_path hplan, Plan.servicePath, hname]
          rfl
        rw [found_flatMap _ s.tree (cString_servicePath hplan hends)]
        refine List.mem_flatMap.2 ⟨_, List.mem_filter.2 ⟨hmem, decide_eq_true hparent⟩, ?_⟩
        rw [h.tended.read hplan hempty garbage (mem_owned.2 ⟨hmem, rfl⟩) hparent reads]
        exact List.mem_singleton_self inst

/-- **Found.** Servers register, update, unregister and die, each at its own address, their requests in any order.
At every moment a discovery client finds for every name what it may find; and a registry that is not in the middle
of a call is registered when its server has made an instance known. -/
theorem found_published (plan : Plan) (legal : Bytes → Bool) (lib : JsonLibrary F)
    (dump : JsonValue F → Option Bytes) (garbage : Int32) (moves : List Move) (hplan : plan.Proper)
    (hmoves : ∀ m ∈ moves, Permitted plan dump m)
    (hparse : ∀ m ∈ moves, ∀ inst ∈ m.instance?, ∀ text, inst.toJson dump = some text →
      lib.parse text = some inst.parsedValue)
    (hempty : lib.parse [] = none) :
    (∀ name, 0 ∉ name → Lists plan (run plan legal dump moves plan.start) name
      (found (ServiceInstance.decodeNode lib garbage) (run plan legal dump moves plan.start).tree
        (ServiceDiscovery.buildServicePath plan.rootPath name))) ∧
    ∀ k, ((run plan legal dump moves plan.start).member k).task = none →
      ((run plan legal dump moves plan.start).member k).registry.registered =
        ((run plan legal dump moves plan.start).member k).published.isSome := by
  have hrun : InOrder plan legal lib (run plan legal dump moves plan.start) :=
    inOrder_start.run hplan moves hmoves hparse
  refine ⟨hrun.lists hplan hempty garbage, fun k hidle => ?_⟩
  have hmember := hrun.member k
  rw [Member.InOrder, hidle] at hmember
  generalize ((run plan legal dump moves plan.start).member k).registry = r at hmember
  generalize ((run plan legal dump moves plan.start).member k).published = before at hmember
  cases hmember with
  | out gone => rfl
  | listed reads stands => rfl

/-- Servers of one service; the address of server `k` ends with `k` ones. -/
def fleet : Plan where
  rootPath := ascii "/services"
  name _ := ascii "user"
  host k := ascii "10.0.0.1" ++ List.replicate k 49
  port _ := 50051

theorem fleet_address (k : Nat) : fleet.address k = ascii "10.0.0.1" ++ (List.replicate k 49 ++ ascii ":50051") :=
  List.append_assoc _ _ _

theorem fleet_proper : fleet.Proper where
  rooted := rfl
  shaped := by decide +kernel
  rootEnds := by decide +kernel
  named _ := (by decide +kernel : ascii "user" ≠ [] ∧ slash ∉ ascii "user" ∧ 0 ∉ ascii "user")
  usable _ := ⟨List.cons_ne_nil _ _, (by decide : (0 : Int32) < 50051)⟩
  addressed k := by
    have hbytes : ∀ c ∈ fleet.address k, c ∈ ascii "10.:5" := by
      intro c hc
      rw [fleet_address, List.mem_append, List.mem_append] at hc
      rcases hc with hc | hc | hc
      · revert c
        decide +kernel
      · rw [(List.mem_replicate.1 hc).2]
        decide +kernel
      · revert c
        decide +kernel
    exact ⟨fun h => absurd (hbytes _ h) (by decide +kernel), fun h => absurd (hbytes _ h) (by decide +kernel)⟩
  distinct j k h := by
    rw [fleet_address, fleet_address] at h
    have hlength := congrArg List.length h
    simp only [List.length_append, List.length_replicate] at hlength
    omega

def fleetInstance (k : Nat) : ServiceInstance := { sampleInstance with host := fleet.host k }

/-- The text of an instance of the fleet. -/
def fleetText (host : Bytes) : Bytes :=
  ascii "\x7b\"host\":\"" ++ host ++ ascii "\",\"instance_id\":\"1\",\"metadata\":\x7b\x7d,\"port\":50051," ++
    ascii "\"service_name\":\"user\",\"weight\":100\x7d"

def fleetDump : JsonValue Empty → Option Bytes
  | .object [(_, .string host), _, _, _, _, _] => some (fleetText host)
  | _ => none

def fleetLibrary : JsonLibrary Empty where
  parse text :=
    if text = fleetText (fleet.host 0) then some (fleetInstance 0).parsedValue
    else if text = fleetText (fleet.host 1) then some (fleetInstance 1).parsedValue
    else none
  truncate x := nomatch x

/-- Two servers register at the same time; the first one updates its instance, and the second one dies. -/
def fleetMoves : List Move :=
  [.begins 0 (.register (fleetInstance 0)), .begins 1 (.register (fleetInstance 1))] ++
    (List.replicate 13 [.advance 0, .advance 1]).flatten ++ .begins 0 (.update (fleetInstance 0)) ::
      List.replicate 4 (.advance 0) ++ [.expire 1]

theorem fleetMoves_begins {k : Nat} {c : RegistryCall} (h : .begins k c ∈ fleetMoves) {inst : ServiceInstance}
    (hinst : inst ∈ c.instance?) : k < 2 ∧ inst = fleetInstance k := by
  simp only [fleetMoves, List.mem_append, List.mem_cons, List.mem_flatten, List.mem_replicate,
    List.not_mem_nil, or_false] at h
  rcases h with (((h | h) | ⟨moves, ⟨-, rfl⟩, h⟩) | (h | h)) | h
  · cases h
    cases hinst
    exact ⟨by decide, rfl⟩
  · cases h
    cases hinst
    exact ⟨by decide, rfl⟩
  · simp at h
  · cases h
    cases hinst
    exact ⟨by decide, rfl⟩
  · cases h.2
  · cases h

theorem found_published_fleet :
    Lists fleet (run fleet (fun _ => true) fleetDump fleetMoves fleet.start) (ascii "user")
        (found (ServiceInstance.decodeNode fleetLibrary 0)
          (run fleet (fun _ => true) fleetDump fleetMoves fleet.start).tree (ascii "/services/user")) ∧
      found (ServiceInstance.decodeNode fleetLibrary 0)
        (run fleet (fun _ => true) fleetDump fleetMoves fleet.start).tree (ascii "/services/user") =
          [fleetInstance 0] := by
  have htext : ∀ k text, (fleetInstance k).toJson fleetDump = some text → text = fleetText (fleet.host k) :=
    fun k text h => (Option.some.inj h).symm
  have hlengths : ∀ k, k < 2 → (fleetText (fleet.host k)).length ≤ maxDataSize := by decide +kernel
  have hne : fleetText (fleet.host 1) ≠ fleetText (fleet.host 0) := by decide +kernel
  have hparses : ∀ k, k < 2 → fleetLibrary.parse (fleetText (fleet.host k)) = some (fleetInstance k).parsedValue := by
    intro k hk
    rcases Nat.lt_succ_iff_lt_or_eq.1 hk with hk | rfl
    · obtain rfl := Nat.lt_one_iff.1 hk
      simp only [fleetLibrary, if_true]
    · simp only [fleetLibrary, hne, if_false, if_true]
  have hmoves : ∀ m ∈ fleetMoves, Permitted fleet fleetDump m := by
    intro m hm
    cases m with
    | begins k c =>
        intro inst hinst
        obtain ⟨hk, rfl⟩ := fleetMoves_begins hm hinst
        refine ⟨⟨rfl, rfl, rfl⟩, fun text h => ?_⟩
        rw [htext k text h]
        exact hlengths k hk
    | advance k => trivial
    | expire k => trivial
  have hparse : ∀ m ∈ fleetMoves, ∀ inst ∈ m.instance?, ∀ text, inst.toJson fleetDump = some text →
      fleetLibrary.parse text = some inst.parsedValue := by
    intro m hm inst hinst text h
    cases m with
    | begins k c =>
        obtain ⟨hk, rfl⟩ := fleetMoves_begins hm hinst
        rw [htext k text h]
        exact hparses k hk
    | advance k => cases hinst
    | expire k => cases hinst
  have hfound := found_published fleet (fun _ => true) fleetLibrary fleetDump 0 fleetMoves fleet_proper hmoves hparse
    (by decide +kernel)
  exact ⟨hfound.1 (ascii "user") (by decide +kernel), by decide +kernel⟩

end Found

end AccountService.Fleet
