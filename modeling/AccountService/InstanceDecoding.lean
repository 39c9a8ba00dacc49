import AccountService.ModelInstance

/-! What a discovery client makes of the data that a foreign writer has left in a node. The fields of an
instance are assigned one after another, and what throws leaves the ones before it assigned: the
instance is empty after a failure only when none of these has brought anything. -/

namespace AccountService

open Interaction

namespace ServiceInstance

variable {F : Type} {lib : JsonLibrary F}

/-- The empty instance; its port has no value. -/
def IsBlank (inst : ServiceInstance) : Prop :=
  inst.serviceName = [] ∧ inst.instanceId = [] ∧ inst.host = [] ∧ inst.weight = 100 ∧ inst.metadata = []

/-- The assignment leaves an empty instance empty. -/
def Assignment.isDefault : Assignment → Prop
  | .serviceName s => s = []
  | .instanceId s => s = []
  | .host s => s = []
  | .port _ => True
  | .weight n => n = 100
  | .metadata entries => entries = []

/-- No conversion throws. -/
def Converts (fields : List (Option Assignment)) : Prop := ∀ a ∈ fields, a.isSome = true

/-- What stands before the first conversion that throws brings nothing. -/
def BlankBefore (fields : List (Option Assignment)) : Prop :=
  ∀ a, some a ∈ fields.takeWhile Option.isSome → a.isDefault

/-- The condition on the data of a node: where a field does not convert, none before it brings anything. -/
def Harmless (lib : JsonLibrary F) (data : Bytes) : Prop :=
  ∀ j, lib.parse data = some j → Converts (assignments lib j) ∨ BlankBefore (assignments lib j)

/-- Malformed data yields the empty instance, which is not valid, and what is cached is an instance that
the data stands for, whatever the uninitialised port holds. -/
def Sound (lib : JsonLibrary F) (data : Bytes) : Prop :=
  ∀ port, (decoded lib data = none → IsBlank (fromJson lib port data) ∧
      (fromJson lib port data).isValid = false) ∧
    ∀ inst ∈ readInstance (decodeNode lib port) data, decoded lib data = some inst

theorem isValid_of_blank {inst : ServiceInstance} (h : IsBlank inst) : inst.isValid = false := by
  rw [isValid, h.2.2.1]
  rfl

/-- The six assignments of given conversions. -/
def fieldsOf (name id host : Option Bytes) (port weight : Option Int32) (entries : Option (List (Bytes × Bytes))) :
    List (Option Assignment) :=
  [name.map .serviceName, id.map .instanceId, host.map .host, port.map .port, weight.map .weight,
    entries.map .metadata]

theorem assignments_eq (lib : JsonLibrary F) (j : JsonValue F) :
    ∃ name id host port weight entries, assignments lib j = fieldsOf name id host port weight entries :=
  ⟨_, _, _, _, _, _, rfl⟩

/-- A failure leaves the instance empty exactly when nothing has been brought before it. -/
theorem assignUntilThrown_blank_iff {j : JsonValue F} (h : ¬ Converts (assignments lib j)) (garbage : Int32) :
    IsBlank (assignUntilThrown (assignments lib j) (empty garbage)) ↔ BlankBefore (assignments lib j) := by
  obtain ⟨name, id, host, port, weight, entries, heq⟩ := assignments_eq lib j
  rw [heq] at h ⊢
  -- the cases are where the first conversion throws
  cases name with
  | none => simp [fieldsOf, assignUntilThrown, BlankBefore, IsBlank, empty]
  | some name =>
      cases id with
      | none =>
          simp [fieldsOf, assignUntilThrown, BlankBefore, IsBlank, empty, Assignment.apply, Assignment.isDefault]
      | some id =>
          cases host with
          | none =>
              simp [fieldsOf, assignUntilThrown, BlankBefore, IsBlank, empty, Assignment.apply,
                Assignment.isDefault]
          | some host =>
              cases port with
              | none =>
                  simp [fieldsOf, assignUntilThrown, BlankBefore, IsBlank, empty, Assignment.apply,
                    Assignment.isDefault]
              | some port =>
                  cases weight with
                  | none =>
                      simp [fieldsOf, assignUntilThrown, BlankBefore, IsBlank, empty, Assignment.apply,
                        Assignment.isDefault]
                  | some weight =>
                      cases entries with
                      | none =>
                          simp [fieldsOf, assignUntilThrown, BlankBefore, IsBlank, empty, Assignment.apply,
                            Assignment.isDefault]
                      | some entries => exact absurd (by simp [fieldsOf, Converts]) h

theorem converts_iff_mapM (fields : List (Option Assignment)) :
    Converts fields ↔ (fields.mapM id).isSome = true := by
  induction fields with
  | nil => simp [Converts]
  | cons field fields ih =>
      cases field with
      | none => simp [Converts]
      | some a =>
          rw [List.mapM_cons]
          cases hrest : fields.mapM id with
          | none => simpa [Converts, hrest] using ih
          | some rest => simpa [Converts, hrest] using ih

theorem decoded_of_parse {data : Bytes} {j : JsonValue F} (hparse : lib.parse data = some j) :
    decoded lib data = ((assignments lib j).mapM id).map (·.foldl (fun inst a => a.apply inst) (empty 0)) := by
  simp only [decoded, hparse, Option.bind_eq_bind, Option.bind_some]
  cases (assignments lib j).mapM id with
  | none => rfl
  | some fields => rfl

theorem decoded_eq_none_iff {data : Bytes} {j : JsonValue F} (hparse : lib.parse data = some j) :
    decoded lib data = none ↔ ¬ Converts (assignments lib j) := by
  rw [decoded_of_parse hparse, converts_iff_mapM, Option.map_eq_none_iff, Bool.not_eq_true,
    Option.isSome_eq_false_iff, Option.isNone_iff_eq_none]

/-- Where every field converts, nothing of the uninitialised port is left. -/
theorem decoded_of_converts {data : Bytes} {j : JsonValue F} (hparse : lib.parse data = some j)
    (h : Converts (assignments lib j)) (garbage : Int32) :
    decoded lib data = some (fromJson lib garbage data) := by
  rw [decoded_of_parse hparse, fromJson, hparse]
  show _ = some (assignUntilThrown (assignments lib j) (empty garbage))
  obtain ⟨name, id, host, port, weight, entries, heq⟩ := assignments_eq lib j
  rw [heq] at h ⊢
  obtain ⟨hname, hid, hhost, hport, hweight, hentries⟩ : name.isSome = true ∧ id.isSome = true ∧
      host.isSome = true ∧ port.isSome = true ∧ weight.isSome = true ∧ entries.isSome = true := by
    simpa [Converts, fieldsOf] using h
  obtain ⟨name, rfl⟩ := Option.isSome_iff_exists.1 hname
  obtain ⟨id, rfl⟩ := Option.isSome_iff_exists.1 hid
  obtain ⟨host, rfl⟩ := Option.isSome_iff_exists.1 hhost
  obtain ⟨port, rfl⟩ := Option.isSome_iff_exists.1 hport
  obtain ⟨weight, rfl⟩ := Option.isSome_iff_exists.1 hweight
  obtain ⟨entries, rfl⟩ := Option.isSome_iff_exists.1 hentries
  rfl

theorem fromJson_of_parseError {data : Bytes} (hparse : lib.parse data = none) (garbage : Int32) :
    fromJson lib garbage data = empty garbage := by rw [fromJson, hparse]

theorem mem_readInstance {garbage : Int32} {data : Bytes} {inst : ServiceInstance}
    (h : inst ∈ readInstance (decodeNode lib garbage) data) :
    inst = fromJson lib garbage data ∧ inst.isValid = true := by
  unfold readInstance decodeNode at h
  split at h
  · cases h
  · split at h
    · rename_i hvalid
      cases List.mem_singleton.1 h
      exact ⟨rfl, hvalid⟩
    · cases h

theorem sound_of_harmless {data : Bytes} (h : Harmless lib data) : Sound lib data := by
  intro garbage
  have hblank : decoded lib data = none → IsBlank (fromJson lib garbage data) := by
    intro hnone
    cases hparse : lib.parse data with
    | none =>
        rw [fromJson_of_parseError hparse]
        exact ⟨rfl, rfl, rfl, rfl, rfl⟩
    | some j =>
        have hthrows := (decoded_eq_none_iff hparse).1 hnone
        rw [fromJson, hparse]
        exact (assignUntilThrown_blank_iff hthrows garbage).2 ((h j hparse).resolve_left hthrows)
  refine ⟨fun hnone => ⟨hblank hnone, isValid_of_blank (hblank hnone)⟩, fun inst hinst => ?_⟩
  obtain ⟨rfl, hvalid⟩ := mem_readInstance hinst
  cases hparse : lib.parse data with
  | none =>
      rw [fromJson_of_parseError hparse] at hvalid
      cases hvalid
  | some j =>
      by_cases hconverts : Converts (assignments lib j)
      · exact decoded_of_converts hparse hconverts garbage
      · have hnone := (decoded_eq_none_iff hparse).2 hconverts
        rw [isValid_of_blank (hblank hnone)] at hvalid
        cases hvalid

theorem harmless_of_sound {data : Bytes} (h : Sound lib data) : Harmless lib data := by
  intro j hparse
  by_cases hconverts : Converts (assignments lib j)
  · exact Or.inl hconverts
  · have hblank := ((h 0).1 ((decoded_eq_none_iff hparse).2 hconverts)).1
    rw [fromJson, hparse] at hblank
    exact Or.inr ((assignUntilThrown_blank_iff hconverts 0).1 hblank)

/-- A refresh that was told these children with these data and stored the instances. -/
def refreshExchange (nodes : List (Bytes × Bytes)) (instances : List ServiceInstance) :
    List ((c : ZkCmd ServiceInstance) × (Zk ServiceInstance).Reply c) :=
  ⟨.getChildren, nodes.map Prod.fst⟩ ::
    (nodes.map (fun n => ⟨.getData n.1, n.2⟩) ++ [⟨.storeCache instances, ()⟩])

/-- The valid instance that the data of a node stands for. -/
def decodedNode (lib : JsonLibrary F) (data : Bytes) : Option ServiceInstance := (decoded lib data).filter isValid

/-- The loop asks for the data of one child after another, and each adds its own instance. -/
theorem exchanges_collectInstances_iff {decode : Bytes → Option ServiceInstance} {children : List Bytes}
    {instances all : List ServiceInstance}
    {exchange : List ((c : ZkCmd ServiceInstance) × (Zk ServiceInstance).Reply c)} :
    Program.Exchanges (collectInstances decode instances children) exchange all ↔
      ∃ nodes : List (Bytes × Bytes), children = nodes.map Prod.fst ∧
        exchange = nodes.map (fun n => ⟨.getData n.1, n.2⟩) ∧
        all = instances ++ nodes.flatMap fun n => readInstance decode n.2 := by
  induction children generalizing instances exchange with
  | nil =>
      constructor
      · rintro ⟨rfl, rfl⟩
        exact ⟨[], rfl, rfl, (List.append_nil _).symm⟩
      · rintro ⟨nodes, hnodes, rfl, rfl⟩
        obtain rfl := List.map_eq_nil_iff.mp hnodes.symm
        exact ⟨rfl, List.append_nil _⟩
  | cons child rest ih =>
      constructor
      · rintro ⟨data, tail, rfl, htail⟩
        obtain ⟨nodes, rfl, rfl, rfl⟩ := ih.mp htail
        exact ⟨(child, data) :: nodes, rfl, rfl, by rw [List.flatMap_cons, List.append_assoc]⟩
      · rintro ⟨nodes, hnodes, rfl, rfl⟩
        obtain ⟨n, nodes, rfl, rfl, rfl⟩ := List.map_eq_cons_iff.mp hnodes.symm
        refine ⟨n.2, _, rfl, ih.mpr ⟨nodes, rfl, rfl, ?_⟩⟩
        rw [List.flatMap_cons, List.append_assoc]

theorem exchanges_refreshInstances_iff {decode : Bytes → Option ServiceInstance}
    {exchange : List ((c : ZkCmd ServiceInstance) × (Zk ServiceInstance).Reply c)} :
    Program.Exchanges (refreshInstances decode) exchange () ↔
      ∃ nodes, exchange = refreshExchange nodes (nodes.flatMap fun n => readInstance decode n.2) := by
  constructor
  · rintro ⟨children, _, rfl, h⟩
    obtain ⟨instances, _, _, rfl, hcollect, ⟨_, _, rfl, rfl, -⟩⟩ := Program.exchanges_bind.mp h
    obtain ⟨nodes, rfl, rfl, rfl⟩ := exchanges_collectInstances_iff.mp hcollect
    exact ⟨nodes, rfl⟩
  · rintro ⟨nodes, rfl⟩
    refine ⟨nodes.map Prod.fst, _, rfl, Program.exchanges_bind.mpr ⟨_, _, _, rfl, ?_, ⟨(), [], rfl, rfl, rfl⟩⟩⟩
    exact exchanges_collectInstances_iff.mpr ⟨nodes, rfl, rfl, rfl⟩

/-- From harmless data comes the instance it stands for, if that is valid, and else nothing. -/
theorem readInstance_of_harmless {data : Bytes} (h : Harmless lib data) (garbage : Int32) :
    readInstance (decodeNode lib garbage) data = readInstance (decodedNode lib) data := by
  have hnode : decodeNode lib garbage data = decodedNode lib data := by
    cases hdecoded : decoded lib data with
    | none =>
        have hinvalid := ((sound_of_harmless h garbage).1 hdecoded).2
        rw [decodeNode, decodedNode, hdecoded, hinvalid, if_neg Bool.false_ne_true, Option.filter_none]
    | some inst =>
        obtain ⟨j, hparse, -⟩ := Option.bind_eq_some_iff.mp hdecoded
        have hconverts : Converts (assignments lib j) := by
          by_contra hthrows
          rw [(decoded_eq_none_iff hparse).mpr hthrows] at hdecoded
          cases hdecoded
        rw [decodedNode, decoded_of_converts hparse hconverts garbage, decodeNode, Option.filter_some]
  rw [readInstance, readInstance, hnode]

/-- **Malformed data.** It is never cached exactly when it is harmless. What a refresh stores is read from its children
one after another, whatever they answer; and from harmless data that is the instance the data itself stands for. -/
theorem malformed_never_cached_iff (lib : JsonLibrary F) :
    (∀ data, Sound lib data ↔ Harmless lib data) ∧
    ∀ garbage,
      (∀ exchange, Program.Exchanges (refreshInstances (decodeNode lib garbage)) exchange () ↔
        ∃ nodes, exchange =
          refreshExchange nodes (nodes.flatMap fun n => readInstance (decodeNode lib garbage) n.2)) ∧
      ∀ data, Harmless lib data →
        readInstance (decodeNode lib garbage) data = readInstance (decodedNode lib) data :=
  ⟨fun _ => ⟨harmless_of_sound, sound_of_harmless⟩, fun garbage =>
    ⟨fun _ => exchanges_refreshInstances_iff, fun _ h => readInstance_of_harmless h garbage⟩⟩

/-- Data whose weight is no number. -/
def heavyData : Bytes := ascii "\x7b\"host\":\"10.0.0.1\",\"port\":50051,\"weight\":\"heavy\"\x7d"

/-- What the library's parser makes of it. -/
def heavyLibrary : JsonLibrary Empty where
  parse data := if data = heavyData then
      some (.object [(ascii "host", .string (ascii "10.0.0.1")), (ascii "port", .unsigned 50051),
        (ascii "weight", .string (ascii "heavy"))])
    else none
  truncate x := nomatch x

/-- The weight does not convert, and the instance is cached with the default weight. -/
theorem heavyData_cached : decoded heavyLibrary heavyData = none ∧
    readInstance (decodeNode heavyLibrary 0) heavyData =
      [{ serviceName := [], instanceId := [], host := ascii "10.0.0.1", port := 50051, metadata := [] }] ∧
    ¬ Sound heavyLibrary heavyData := by
  have hnone : decoded heavyLibrary heavyData = none := by decide +kernel
  have hvalid : (fromJson heavyLibrary 0 heavyData).isValid = true := by decide +kernel
  refine ⟨hnone, by decide +kernel, fun h => ?_⟩
  rw [((h 0).1 hnone).2] at hvalid
  cases hvalid

end ServiceInstance

end AccountService
