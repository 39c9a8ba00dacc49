import AccountService.ModelRegistry
import AccountService.ZooKeeperSpec

/-! Where the registry puts its nodes and where discovery looks for them. `CreateServicePath` takes the path
apart and skips empty names, while the other functions glue and cut texts: they agree for a root without
empty names, which also has no `/` at its end. -/

namespace AccountService.ZooKeeper

open Interaction

theorem cString_of_not_mem {s : Bytes} (h : 0 ∉ s) : cString s = s :=
  List.takeWhile_eq_self_iff.2 fun c hc => by
    have hne : c ≠ 0 := fun hz => h (hz ▸ hc)
    simpa using hne

theorem cString_append {s : Bytes} (h : 0 ∉ s) (t : Bytes) : cString (s ++ t) = s ++ cString t :=
  List.takeWhile_append_of_pos fun c hc => by
    have hne : c ≠ 0 := fun hz => h (hz ▸ hc)
    simpa using hne

/-- Nothing behind the first `'\\0'` is read. -/
theorem cString_append_of_mem {s : Bytes} (h : 0 ∈ s) (t : Bytes) : cString (s ++ t) = cString s := by
  induction s with
  | nil => cases h
  | cons c s ih =>
      by_cases hc : c = 0
      · subst hc
        rfl
      · have hs : 0 ∈ s := (List.mem_cons.1 h).resolve_left (Ne.symm hc)
        have hkeep : ∀ rest : Bytes, cString (c :: rest) = c :: cString rest := fun rest =>
          List.takeWhile_cons_of_pos (by simpa using hc)
        rw [List.cons_append, hkeep, hkeep, ih hs]

theorem cString_slash (s : Bytes) : cString (slash :: s) = slash :: cString s :=
  List.takeWhile_cons_of_pos (by decide)

theorem head?_of_validPath {legal : Bytes → Bool} {s : Bytes} (h : validPath legal (cString s)) :
    s.head? = some slash := by
  cases s with
  | nil => exact Bool.noConfusion h
  | cons c s =>
      by_cases hc : c = 0
      · subst hc
        exact Bool.noConfusion h
      · rw [cString, List.takeWhile_cons_of_pos (by simpa using hc), validPath, Bool.and_eq_true] at h
        rw [List.head?_cons, of_decide_eq_true h.1]

theorem not_mem_of_mem_splitOn {s : Bytes} : ∀ {part : Bytes}, part ∈ s.splitOn slash → slash ∉ part := by
  induction s with
  | nil =>
      intro part hpart
      rw [List.splitOn_nil, List.mem_singleton] at hpart
      subst hpart
      exact List.not_mem_nil
  | cons c s ih =>
      intro part hpart
      rw [List.splitOn_cons_eq_if_modifyHead] at hpart
      split at hpart
      · rcases List.mem_cons.1 hpart with rfl | hpart
        · exact List.not_mem_nil
        · exact ih hpart
      · rename_i hc
        have hc : slash ≠ c := fun h => hc (by rw [h]; exact beq_self_eq_true c)
        cases hsplit : s.splitOn slash with
        | nil => exact absurd hsplit (List.splitOn_ne_nil slash s)
        | cons head tail =>
            rw [hsplit, List.modifyHead_cons] at hpart
            rw [hsplit] at ih
            rcases List.mem_cons.1 hpart with rfl | hpart
            · intro hmem
              rcases List.mem_cons.1 hmem with h | h
              · exact hc h
              · exact ih List.mem_cons_self h
            · exact ih (List.mem_cons_of_mem _ hpart)

theorem parentPath_child {name : Bytes} (h : slash ∉ name) (path : Bytes) :
    parentPath (path ++ slash :: name) = path := by
  have hrev : (path ++ slash :: name).reverse = name.reverse ++ slash :: path.reverse := by
    rw [List.reverse_append, List.reverse_cons, List.append_assoc]
    rfl
  have hdrop : (name.reverse ++ slash :: path.reverse).dropWhile (· ≠ slash) = slash :: path.reverse := by
    rw [List.dropWhile_append_of_pos, List.dropWhile_cons_of_neg (by decide)]
    intro c hc
    have hne : c ≠ slash := fun hs => h (hs ▸ List.mem_reverse.1 hc)
    simpa using hne
  rw [parentPath, hrev, hdrop, List.drop_one, List.tail_cons, List.reverse_reverse]

variable {legal : Bytes → Bool} {session : Nat} {s s' : Server} {path data : Bytes}

/-- The loop's path behind the given names. -/
def joined (current : Bytes) (names : List Bytes) : Bytes := names.foldl (fun c name => c ++ slash :: name) current

theorem joined_eq (names : List Bytes) :
    ∀ current : Bytes, names ≠ [] → joined current names = current ++ slash :: [slash].intercalate names := by
  induction names with
  | nil => exact fun _ h => absurd rfl h
  | cons name rest ih =>
      intro current _
      cases rest with
      | nil => simp [joined]
      | cons next rest =>
          have hih := ih (current ++ slash :: name) (List.cons_ne_nil _ _)
          rw [joined, List.foldl_cons]
          rw [joined] at hih
          rw [hih]
          simp

/-- What the loop asks for: persistent nodes at paths that are not longer than the given one. -/
def Lays (bound : Nat) : ClientCmd → Prop
  | .isConnected | .exists _ => True
  | .create path _ ephemeral => ephemeral = false ∧ (cString path).length ≤ bound
  | _ => False

theorem cString_length_le_append (text rest : Bytes) : (cString text).length ≤ (cString (text ++ rest)).length := by
  by_cases hzero : 0 ∈ text
  · rw [cString_append_of_mem hzero]
  · rw [cString_append hzero, cString_of_not_mem hzero, List.length_append]
    exact Nat.le_add_right _ _

theorem cString_length_le_joined (names : List Bytes) :
    ∀ text : Bytes, (cString text).length ≤ (cString (joined text names)).length := by
  induction names with
  | nil => exact fun _ => Nat.le_refl _
  | cons name rest ih => exact fun text => (cString_length_le_append text (slash :: name)).trans (ih _)

/-- The loop drops empty names: what it has put together is no longer than what it has read. -/
structure Shortened (current text : Bytes) : Prop where
  ends : 0 ∈ text → 0 ∈ current
  length : (cString current).length ≤ (cString text).length

theorem Shortened.refl (text : Bytes) : Shortened text text := ⟨fun h => h, Nat.le_refl _⟩

theorem Shortened.skip {current text : Bytes} (h : Shortened current text) : Shortened current (text ++ [slash]) := by
  refine ⟨fun hz => ?_, h.length.trans (cString_length_le_append text [slash])⟩
  rcases List.mem_append.1 hz with hz | hz
  · exact h.ends hz
  · exact absurd (List.mem_singleton.1 hz) (by decide)

theorem Shortened.append {current text : Bytes} (h : Shortened current text) (token : Bytes) :
    Shortened (current ++ slash :: token) (text ++ slash :: token) := by
  refine ⟨fun hz => ?_, ?_⟩
  · rcases List.mem_append.1 hz with hz | hz
    · exact List.mem_append_left _ (h.ends hz)
    · exact List.mem_append_right _ hz
  · by_cases hcurrent : 0 ∈ current
    · rw [cString_append_of_mem hcurrent]
      exact h.length.trans (cString_length_le_append text _)
    · have htext : 0 ∉ text := fun hz => hcurrent (h.ends hz)
      have hlength := h.length
      rw [cString_of_not_mem hcurrent, cString_of_not_mem htext] at hlength
      rw [cString_append hcurrent, cString_append htext, List.length_append, List.length_append]
      omega

theorem createNode_lays {bound : Nat} (h : (cString path).length ≤ bound) :
    (createNode path data false).Uses (Lays bound) := by
  refine ⟨trivial, fun connected => ?_⟩
  cases connected with
  | false => trivial
  | true =>
      refine ⟨⟨rfl, h⟩, fun rc => ?_⟩
      cases rc <;> trivial

theorem existsNode_lays (bound : Nat) (path : Bytes) : (existsNode path).Uses (Lays bound) := by
  refine ⟨trivial, fun connected => ?_⟩
  cases connected with
  | false => trivial
  | true => exact ⟨trivial, fun _ => trivial⟩

theorem createTokens_lays (tokens : List Bytes) : ∀ {current text : Bytes}, Shortened current text →
    (createTokens current tokens).Uses (Lays (cString (joined text tokens)).length) := by
  induction tokens with
  | nil => exact fun _ => trivial
  | cons token rest ih =>
      intro current text h
      have hnext := h.append token
      have hbound := hnext.length.trans (cString_length_le_joined rest _)
      rw [createTokens]
      split
      · rename_i hempty
        rw [List.isEmpty_iff] at hempty
        subst hempty
        exact ih h.skip
      · refine (existsNode_lays _ _).bind fun found => ?_
        cases found with
        | true => exact ih hnext
        | false =>
            refine (createNode_lays hbound).bind fun created => ?_
            cases created with
            | true => exact ih hnext
            | false => trivial

theorem splitOn_of_head {path : Bytes} (hhead : path.head? = some slash) :
    ∃ rest, path = slash :: rest ∧ path.splitOn slash = [] :: rest.splitOn slash := by
  cases path with
  | nil => cases hhead
  | cons c rest =>
      obtain rfl : c = slash := Option.some.inj hhead
      refine ⟨rest, rfl, ?_⟩
      rw [List.splitOn_cons_eq_if_modifyHead]
      simp

theorem createServicePath_lays (path : Bytes) : ∃ bound, (createServicePath path).Uses (Lays bound) ∧
    (path.head? = some slash → bound = (cString path).length) := by
  have huses : ∀ bound, (createTokens [] (path.splitOn slash)).Uses (Lays bound) →
      (createServicePath path).Uses (Lays bound) := fun bound h => by
    refine ⟨trivial, fun connected => ?_⟩
    cases connected with
    | false => trivial
    | true => exact h
  by_cases hhead : path.head? = some slash
  · obtain ⟨rest, rfl, hsplit⟩ := splitOn_of_head hhead
    have hlays := createTokens_lays (rest.splitOn slash) (.refl [])
    rw [joined_eq _ _ (List.splitOn_ne_nil slash rest), List.intercalate_splitOn] at hlays
    rw [hsplit] at huses
    exact ⟨_, huses _ hlays, fun _ => rfl⟩
  · exact ⟨_, huses _ (createTokens_lays _ (.refl [])), fun h => absurd h hhead⟩

/-- The paths that the loop asks for, one after another. -/
def prefixes (current : Bytes) : List Bytes → List Bytes
  | [] => []
  | token :: rest =>
      if token.isEmpty then prefixes current rest
      else (current ++ slash :: token) :: prefixes (current ++ slash :: token) rest

/-- Nothing has gone, and what has come has a path that the server accepts. -/
structure Grows (legal : Bytes → Bool) (s s' : Server) : Prop where
  kept : ∀ path, s.tree.present path → s'.tree.present path
  accepted : (∀ e ∈ s.tree, validPath legal e.1) → ∀ e ∈ s'.tree, validPath legal e.1

theorem Grows.refl (legal : Bytes → Bool) (s : Server) : Grows legal s s := ⟨fun _ h => h, fun h => h⟩

theorem Grows.trans {s'' : Server} (h : Grows legal s s') (h' : Grows legal s' s'') : Grows legal s s'' :=
  ⟨fun path hpath => h'.kept path (h.kept path hpath), fun hs => h'.accepted (h.accepted hs)⟩

theorem Grows.create (session : Nat) (path data : Bytes) (ephemeral : Bool) (s : Server) :
    Grows legal s { s with tree := (zooCreate legal session path data ephemeral s.tree).2 } := by
  rcases zooCreate_cases legal session path data ephemeral s.tree with
    ⟨hvalid, -, -, -, hrun⟩ | ⟨-, -, hrun⟩ | ⟨code, -, -, hrun, -⟩
  · rw [hrun]
    refine ⟨fun p hp => ?_, fun hs e he => ?_⟩
    · rw [Tree.present_append, hp]
      rfl
    · rcases List.mem_append.1 he with he | he
      · exact hs e he
      · rw [List.mem_singleton.1 he]
        exact hvalid
  · rw [hrun]
    exact .refl legal s
  · rw [hrun]
    exact .refl legal s

theorem Grows.handler {bound : Nat} {c : ClientCmd} (hc : Lays bound c) (s : Server) :
    Grows legal s (ZooKeeper.handler legal session c s).2 := by
  cases c with
  | isConnected => exact .refl legal s
  | «exists» path => exact .refl legal s
  | create path data ephemeral =>
      rw [ZooKeeper.handler]
      split
      · exact .create session path data ephemeral s
      · exact .refl legal s
  | delete path => exact absurd hc id
  | set path data => exact absurd hc id

theorem run_grows {bound : Nat} {p : Program Client Bool} (hp : p.Uses (Lays bound)) (s : Server) :
    Grows legal s (p.run (handler legal session) s).2 :=
  Program.run_invariant (handler legal session) (I := Grows legal s)
    (fun _ hc s' hs => hs.trans (Grows.handler hc s')) hp (.refl legal s)

theorem run_existsNode (path : Bytes) (s : Server) :
    (existsNode path).run (handler legal session) s =
      (s.connected && (validPath legal (cString path) && s.tree.present (cString path)), s) := by
  cases hc : s.connected with
  | false => simp [existsNode, handler, hc]
  | true =>
      cases hv : validPath legal (cString path) with
      | false => simp [existsNode, handler, hc, zooExists, hv]
      | true =>
          cases hp : s.tree.present (cString path) with
          | false => simp [existsNode, handler, hc, zooExists, hv, hp]
          | true => simp [existsNode, handler, hc, zooExists, hv, hp]

/-- A persistent node that is reported as created is there. -/
theorem createNode_true (h : ((createNode path data false).run (handler legal session) s).1 = true) :
    validPath legal (cString path) ∧
      ((createNode path data false).run (handler legal session) s).2.tree.present (cString path) := by
  cases hc : s.connected with
  | false => simp [createNode, handler, hc] at h
  | true =>
      rcases zooCreate_cases legal session path data false s.tree with
        ⟨hvalid, -, -, -, hrun⟩ | ⟨hvalid, hpresent, hrun⟩ | ⟨code, hok, hexists, hrun, -⟩
      · simp [createNode, handler, hc, hrun, hvalid, Tree.present_append]
      · simp [createNode, handler, hc, hrun, hvalid, hpresent]
      · simp [createNode, handler, hc, hrun, hok, hexists] at h

/-- **The loop.** If it reports success, every path it asked for is accepted by the server and there. -/
theorem createTokens_true {tokens : List Bytes} :
    ∀ {current : Bytes} {s : Server}, ((createTokens current tokens).run (handler legal session) s).1 = true →
      ∀ p ∈ prefixes current tokens, validPath legal (cString p) ∧
        ((createTokens current tokens).run (handler legal session) s).2.tree.present (cString p) := by
  induction tokens with
  | nil => exact fun _ p hp => nomatch hp
  | cons token rest ih =>
      intro current s h p hp
      by_cases hempty : token.isEmpty
      · rw [createTokens, if_pos hempty] at h ⊢
        rw [prefixes, if_pos hempty] at hp
        exact ih h p hp
      · rw [createTokens, if_neg hempty] at h ⊢
        rw [prefixes, if_neg hempty] at hp
        rw [Program.run_bind, run_existsNode] at h ⊢
        cases hfound : s.connected &&
          (validPath legal (cString (current ++ slash :: token)) &&
            s.tree.present (cString (current ++ slash :: token))) with
        | true =>
            simp only [hfound, if_true] at h ⊢
            simp only [Bool.and_eq_true] at hfound
            rcases List.mem_cons.1 hp with rfl | hp
            · exact ⟨hfound.2.1, (run_grows (createTokens_lays rest (.refl _)) s).kept _ hfound.2.2⟩
            · exact ih h p hp
        | false =>
            simp only [hfound, if_false, Bool.false_eq_true, Program.run_bind] at h ⊢
            cases hcreated : ((createNode (current ++ slash :: token) [] false).run (handler legal session) s).1 with
            | false => simp [hcreated] at h
            | true =>
                obtain ⟨hvalid, hpresent⟩ := createNode_true hcreated
                simp only [hcreated, if_true] at h ⊢
                rcases List.mem_cons.1 hp with rfl | hp
                · exact ⟨hvalid, (run_grows (createTokens_lays rest (.refl _)) _).kept _ hpresent⟩
                · exact ih h p hp

/-- A connected server on which every node may have children. -/
structure Open (s : Server) : Prop where
  connected : s.connected
  persistent : ∀ e ∈ s.tree, e.2.owner = none

theorem Open.not_ephemeral (h : Open s) (path : Bytes) : s.tree.ephemeral path = false := by
  rw [Tree.ephemeral, Tree.node]
  cases hfind : s.tree.find? (·.1 = path) with
  | none => rfl
  | some e => simp [h.persistent e (List.mem_of_find?_eq_some hfind)]

/-- On an open server, a child of a node that is there is created, if the server accepts its path. -/
theorem Open.createNode (session : Nat) (data : Bytes) (h : Open s) (hvalid : validPath legal (cString path))
    (hparent : s.tree.present (parentPath (cString path))) :
    ((createNode path data false).run (handler legal session) s).1 = true ∧
      Open ((ZooKeeper.createNode path data false).run (handler legal session) s).2 := by
  obtain ⟨tree, connected⟩ := s
  obtain rfl : connected = true := h.connected
  rcases zooCreate_cases legal session path data false tree with
    ⟨-, -, -, -, hrun⟩ | ⟨-, -, hrun⟩ | ⟨code, hok, hexists, hrun, hwhy⟩
  · simp only [ZooKeeper.createNode, handler, Program.run_call, if_true, hrun, Program.run_pure, true_and]
    refine ⟨rfl, fun e he => ?_⟩
    rcases List.mem_append.1 he with he | he
    · exact h.persistent e he
    · rw [List.mem_singleton.1 he]
      rfl
  · simpa [ZooKeeper.createNode, handler, hrun] using h
  · rcases hwhy with hno | hno | hno
    · rw [hvalid] at hno
      exact Bool.noConfusion hno
    · rw [hparent] at hno
      exact Bool.noConfusion hno
    · rw [h.not_ephemeral] at hno
      exact Bool.noConfusion hno

/-- **The loop, the other way.** On an open server it succeeds if the server accepts every path it asks for. -/
theorem Open.createTokens {tokens : List Bytes} (hslash : ∀ token ∈ tokens, slash ∉ token) :
    ∀ {current : Bytes} {s : Server}, Open s → s.tree.present (cString current) →
      (∀ p ∈ prefixes current tokens, validPath legal (cString p)) →
        ((ZooKeeper.createTokens current tokens).run (handler legal session) s).1 = true := by
  induction tokens with
  | nil => exact fun _ _ _ => rfl
  | cons token rest ih =>
      intro current s h hcurrent hvalid
      have htail := fun t ht => hslash t (List.mem_cons_of_mem _ ht)
      by_cases hempty : token.isEmpty
      · rw [ZooKeeper.createTokens, if_pos hempty]
        rw [prefixes, if_pos hempty] at hvalid
        exact ih htail h hcurrent hvalid
      · rw [ZooKeeper.createTokens, if_neg hempty, Program.run_bind, run_existsNode]
        rw [prefixes, if_neg hempty] at hvalid
        have hnext := hvalid _ List.mem_cons_self
        have hrest := fun p hp => hvalid p (List.mem_cons_of_mem _ hp)
        cases hfound : s.tree.present (cString (current ++ slash :: token)) with
        | true =>
            simp only [h.connected, hnext, Bool.and_self, if_true]
            exact ih htail h hfound hrest
        | false =>
            simp only [h.connected, hnext, Bool.and_false, if_false, Bool.false_eq_true, Program.run_bind]
            -- a `'\0'` before the new name would make its path the one that is there
            have hzero : 0 ∉ current := fun hz => by
              rw [cString_append_of_mem hz, hcurrent] at hfound
              exact Bool.noConfusion hfound
            have hsub : slash ∉ cString token := fun hs =>
              hslash token List.mem_cons_self ((List.takeWhile_prefix _).subset hs)
            have hparent : parentPath (cString (current ++ slash :: token)) = cString current := by
              rw [cString_append hzero, cString_slash, parentPath_child hsub, cString_of_not_mem hzero]
            obtain ⟨hcreated, hopen⟩ := h.createNode session [] hnext
              (by rw [hparent]; exact hcurrent)
            simp only [hcreated, if_true]
            exact ih htail hopen (createNode_true hcreated).2 hrest

/-- Every name of a path that starts with `/` is a name. -/
def WellShaped (path : Bytes) : Prop := ∀ name ∈ path.tail.splitOn slash, name ≠ []

instance (path : Bytes) : Decidable (WellShaped path) := inferInstanceAs (Decidable (∀ _ ∈ _, _))

theorem joined_mem_prefixes {names : List Bytes} (hne : names ≠ []) :
    ∀ current : Bytes, (∀ name ∈ names, name ≠ []) → joined current names ∈ prefixes current names := by
  induction names with
  | nil => exact absurd rfl hne
  | cons name rest ih =>
      intro current h
      have hname : ¬ name.isEmpty := fun he => h name List.mem_cons_self (List.isEmpty_iff.1 he)
      rw [prefixes, if_neg hname, joined, List.foldl_cons]
      cases rest with
      | nil => exact List.mem_cons_self
      | cons next rest =>
          exact List.mem_cons_of_mem _
            (ih (List.cons_ne_nil _ _) _ fun n hn => h n (List.mem_cons_of_mem _ hn))

/-- A path of names is what the loop asks for last. -/
theorem mem_prefixes_of_wellShaped {path : Bytes} (hhead : path.head? = some slash) (h : WellShaped path) :
    path ∈ prefixes [] (path.splitOn slash) := by
  obtain ⟨rest, rfl, hsplit⟩ := splitOn_of_head hhead
  have hne : rest.splitOn slash ≠ [] := List.splitOn_ne_nil slash rest
  rw [hsplit, prefixes, if_pos List.isEmpty_nil]
  have hmem := joined_mem_prefixes hne [] h
  rwa [joined_eq _ _ hne, List.intercalate_splitOn] at hmem

theorem wellShaped_of_validPath {path : Bytes} (hne : path ≠ [slash]) (h : validPath legal path) :
    WellShaped path := by
  cases path with
  | nil => exact Bool.noConfusion h
  | cons c rest =>
      intro name hname hempty
      cases hrest : rest with
      | nil =>
          simp only [validPath, Bool.and_eq_true, decide_eq_true_eq] at h
          exact hne (by rw [h.1, hrest])
      | cons d rest' =>
          simp only [validPath, hrest, List.isEmpty_cons, Bool.false_or, Bool.and_eq_true, List.all_eq_true] at h
          rw [List.tail_cons, hrest] at hname
          have hall := (h.2 name hname).1
          rw [hempty] at hall
          exact Bool.noConfusion hall

theorem wellShaped_child_iff {path name : Bytes} (hhead : path.head? = some slash) (hname : slash ∉ name) :
    WellShaped (path ++ slash :: name) ↔ WellShaped path ∧ name ≠ [] := by
  cases path with
  | nil => cases hhead
  | cons c rest =>
      rw [WellShaped, WellShaped, List.cons_append, List.tail_cons, List.tail_cons,
        List.splitOn_append_cons_self, List.splitOn_eq_singleton hname]
      constructor
      · exact fun h => ⟨fun n hn => h n (List.mem_append_left _ hn),
          h name (List.mem_append_right _ (List.mem_singleton.2 rfl))⟩
      · rintro ⟨hpath, hne⟩ n hn
        rcases List.mem_append.1 hn with hn | hn
        · exact hpath n hn
        · rwa [List.mem_singleton.1 hn]

end AccountService.ZooKeeper

namespace AccountService.ServiceRegistry

open Interaction ZooKeeper

variable (legal : Bytes → Bool) (rootPath name : Bytes) (inst : ServiceInstance)

/-- The node of the service is there, the instance has its place directly below it, and discovery lists it and
reads the name off it. -/
structure MeetsIn (t : Tree) : Prop where
  there : t.present (cString (buildServicePath rootPath name))
  below : ∃ child, child ≠ [] ∧ slash ∉ child ∧
    cString (buildInstancePath rootPath inst) = cString (buildServicePath rootPath name) ++ slash :: child
  listed : ServiceDiscovery.buildServicePath rootPath name = buildServicePath rootPath name
  extracted : ServiceDiscovery.extractServiceName rootPath (buildServicePath rootPath name) = name

/-- Registration and discovery meet whenever `CreateServicePath` reports success, on every server whose nodes
have paths that it accepts. -/
def Meets : Prop :=
  ∀ (session : Nat) (s : Server), (∀ e ∈ s.tree, validPath legal e.1) →
    let outcome := (createServicePath (buildServicePath rootPath name)).run (handler legal session) s
    outcome.1 = true → MeetsIn rootPath name inst outcome.2.tree

/-- The root is a sequence of names, and no text ends early or brings a `/` of its own. -/
structure Agreeable : Prop where
  shaped : WellShaped rootPath
  rootEnds : 0 ∉ rootPath
  nameEnds : 0 ∉ name
  addressed : cString inst.getAddress ≠ []
  flat : slash ∉ cString inst.getAddress

/-- A server refuses some path that the loop asks for. -/
def Refused : Prop :=
  ∃ p ∈ prefixes [] ((buildServicePath rootPath name).splitOn slash), validPath legal (cString p) = false

variable {legal rootPath name inst}

theorem buildInstancePath_eq (hname : inst.serviceName = name) :
    buildInstancePath rootPath inst = buildServicePath rootPath name ++ slash :: inst.getAddress := by
  rw [buildInstancePath, buildServicePath, hname, List.append_assoc]

theorem extractServiceName_buildServicePath (hne : name ≠ []) :
    ServiceDiscovery.extractServiceName rootPath (buildServicePath rootPath name) = name := by
  have hlength : ¬ (buildServicePath rootPath name).length ≤ rootPath.length + 1 := by
    have hpos : 0 < name.length := List.length_pos_iff.2 hne
    rw [buildServicePath, List.length_append, List.length_cons]
    omega
  rw [ServiceDiscovery.extractServiceName, if_neg hlength, buildServicePath, List.drop_length_add_append]
  rfl

theorem head?_buildServicePath (hroot : rootPath.head? = some slash) :
    (buildServicePath rootPath name).head? = some slash := by
  rw [buildServicePath, List.head?_append, hroot]
  rfl

/-- A run that succeeds has gone through the loop. -/
theorem run_createServicePath {session : Nat} {s : Server} {path : Bytes} (hs : s.connected) :
    (createServicePath path).run (handler legal session) s =
      (createTokens [] (path.splitOn slash)).run (handler legal session) s := by
  rw [createServicePath, Program.run_call, handler, hs]
  rfl

theorem connected_of_createServicePath {session : Nat} {s : Server} {path : Bytes}
    (h : ((createServicePath path).run (handler legal session) s).1 = true) : s.connected := by
  cases hs : s.connected with
  | true => rfl
  | false => simp [createServicePath, handler, hs] at h

theorem Agreeable.meets (h : Agreeable rootPath name inst) (hroot : rootPath.head? = some slash)
    (hne : name ≠ []) (hslash : slash ∉ name) (hname : inst.serviceName = name) :
    Meets legal rootPath name inst := by
  intro session s hvalid outcome hrun
  have hzero : 0 ∉ buildServicePath rootPath name := by
    rw [buildServicePath, List.mem_append, List.mem_cons]
    rintro (hz | hz | hz)
    · exact h.rootEnds hz
    · exact absurd hz (by decide)
    · exact h.nameEnds hz
  have hshape : WellShaped (buildServicePath rootPath name) :=
    (wellShaped_child_iff hroot hslash).2 ⟨h.shaped, hne⟩
  have hlast := mem_prefixes_of_wellShaped (head?_buildServicePath hroot) hshape
  have houtcome : outcome = _ := run_createServicePath (connected_of_createServicePath hrun)
  rw [houtcome] at hrun ⊢
  refine ⟨(createTokens_true hrun _ hlast).2, ⟨cString inst.getAddress, h.addressed, h.flat, ?_⟩, rfl,
    extractServiceName_buildServicePath hne⟩
  rw [buildInstancePath_eq hname, cString_append hzero, cString_slash, cString_of_not_mem hzero]

/-- The empty server to which the client is connected. -/
def freshServer : Server := ⟨[], true⟩

/-- If the server refuses nothing, one run on a fresh server tells all of it. -/
theorem Meets.agreeable (h : Meets legal rootPath name inst) (hroot : rootPath.head? = some slash)
    (hne : name ≠ []) (hslash : slash ∉ name) (hname : inst.serviceName = name)
    (hrefused : ¬ Refused legal rootPath name) : Agreeable rootPath name inst := by
  have hopen : Open freshServer := ⟨rfl, fun e he => nomatch he⟩
  have hall : ∀ p ∈ prefixes [] ((buildServicePath rootPath name).splitOn slash),
      validPath legal (cString p) := fun p hp => by
    cases hv : validPath legal (cString p) with
    | true => rfl
    | false => exact absurd ⟨p, hp, hv⟩ hrefused
  have hrun : ((createServicePath (buildServicePath rootPath name)).run (handler legal 0) freshServer).1 = true := by
    rw [run_createServicePath rfl]
    exact hopen.createTokens (fun token ht => not_mem_of_mem_splitOn ht) rfl hall
  have hmeets := h 0 freshServer (fun e he => nomatch he) hrun
  obtain ⟨child, hchild, hflat, hbelow⟩ := hmeets.below
  rw [buildInstancePath_eq hname] at hbelow
  have hzero : 0 ∉ buildServicePath rootPath name := fun hz => by
    rw [cString_append_of_mem hz] at hbelow
    have hlength := congrArg List.length hbelow
    rw [List.length_append, List.length_cons] at hlength
    omega
  rw [cString_append hzero, cString_slash, cString_of_not_mem hzero, List.append_cancel_left_eq,
    List.cons.injEq] at hbelow
  have hshape : WellShaped (buildServicePath rootPath name) := by
    have hlength : 2 < (buildServicePath rootPath name).length := by
      have hroot : 0 < rootPath.length := List.length_pos_iff.2 fun hnil => by rw [hnil] at hroot; cases hroot
      have hpos : 0 < name.length := List.length_pos_iff.2 hne
      rw [buildServicePath, List.length_append, List.length_cons]
      omega
    have hpath : ∀ short : Bytes, short.length ≤ 2 → buildServicePath rootPath name ≠ short :=
      fun short hshort heq => by rw [heq] at hlength; omega
    have hthere := hmeets.there
    rw [cString_of_not_mem hzero] at hthere
    have hgrows : Grows legal freshServer
        ((createServicePath (buildServicePath rootPath name)).run (handler legal 0) freshServer).2 := by
      rw [run_createServicePath rfl]
      exact run_grows (createTokens_lays _ (.refl _)) freshServer
    exact wellShaped_of_validPath (hpath _ (by decide)) (validPath_of_present
      (hgrows.accepted fun e he => nomatch he) hthere (hpath _ (by decide)) (hpath _ (by decide)))
  refine ⟨((wellShaped_child_iff hroot hslash).1 hshape).1,
    fun hz => hzero (List.mem_append_left _ hz), fun hz => hzero ?_, hbelow.2 ▸ hchild, hbelow.2 ▸ hflat⟩
  exact List.mem_append_right _ (List.mem_cons_of_mem _ hz)

/-- **The same path.** Registration and discovery meet after every successful `CreateServicePath` if and only
if the root has no empty names, no text has a `'\0'` before its end and the address is one name, or the server
refuses a path on the way, so that there is no success. -/
theorem meets_iff (legal : Bytes → Bool) {rootPath name : Bytes} {inst : ServiceInstance}
    (hroot : rootPath.head? = some slash) (hne : name ≠ []) (hslash : slash ∉ name)
    (hname : inst.serviceName = name) :
    Meets legal rootPath name inst ↔ Agreeable rootPath name inst ∨ Refused legal rootPath name := by
  constructor
  · intro h
    by_cases hrefused : Refused legal rootPath name
    · exact .inr hrefused
    · exact .inl (h.agreeable hroot hne hslash hname hrefused)
  · rintro (h | ⟨p, hp, hvalid⟩)
    · exact h.meets hroot hne hslash hname
    · intro session s _ outcome hrun
      have houtcome : outcome = _ := run_createServicePath (connected_of_createServicePath hrun)
      rw [houtcome] at hrun
      rw [(createTokens_true hrun p hp).1] at hvalid
      exact Bool.noConfusion hvalid

/-- An instance that discovery can use. -/
def sampleInstance : ServiceInstance :=
  { serviceName := ascii "user", instanceId := ascii "1", host := ascii "10.0.0.1", port := 50051, metadata := [] }

theorem meets_iff_services : ascii "/services" ≠ [] ∧
    (Meets (fun _ => true) (ascii "/services") (ascii "user") sampleInstance ↔
      Agreeable (ascii "/services") (ascii "user") sampleInstance ∨
        Refused (fun _ => true) (ascii "/services") (ascii "user")) :=
  ⟨by decide, meets_iff (fun _ => true) (by decide) (by decide) (by decide) rfl⟩

/-- A `/` at the end of the root: the loop creates `/services/user`, and reports that `/services//user` is
there, a path that the server does not accept. -/
theorem trailingSlash_apart :
    (createServicePath (buildServicePath (ascii "/services/") (ascii "user"))).run
        (handler (fun _ => true) 0) freshServer =
      (true, ⟨[(ascii "/services", ⟨[], none⟩), (ascii "/services/user", ⟨[], none⟩)], true⟩) ∧
    zooExists (fun _ => true) (buildServicePath (ascii "/services/") (ascii "user"))
        [(ascii "/services", ⟨[], none⟩), (ascii "/services/user", ⟨[], none⟩)] = .badArguments ∧
    ¬ Meets (fun _ => true) (ascii "/services/") (ascii "user") sampleInstance := by
  have hrun : (createServicePath (buildServicePath (ascii "/services/") (ascii "user"))).run
      (handler (fun _ => true) 0) freshServer =
        (true, ⟨[(ascii "/services", ⟨[], none⟩), (ascii "/services/user", ⟨[], none⟩)], true⟩) := by
    decide +kernel
  refine ⟨hrun, by decide +kernel, fun h => ?_⟩
  have hthere := (h 0 freshServer (fun e he => nomatch he) (by rw [hrun])).there
  rw [hrun] at hthere
  revert hthere
  decide +kernel

end AccountService.ServiceRegistry
