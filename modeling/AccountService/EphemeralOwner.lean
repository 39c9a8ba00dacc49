import AccountService.ZooKeeperSpec

/-! Who owns the node behind a `CreateNode` that returns true, when other sessions create, delete, write and
end in between. A create makes its session the owner; the write that the recovery falls back to keeps the
owner that the node has. -/

namespace AccountService.ZooKeeper

open Interaction

/-- A request that succeeded, with the nodes before and after it. -/
structure Success where
  request : ClientCmd
  before : Tree
  after : Tree
  deriving DecidableEq

/-- The server, and the last request of the session that succeeded. -/
structure Watched where
  server : Server
  last : Option Success := none
  deriving DecidableEq

/-- A request, not a look at the connection, that the server has granted. -/
def granted : (c : ClientCmd) → Client.Reply c → Bool
  | .isConnected, _ => false
  | .create _ _ _, (code : Code) => code = .ok
  | .delete _, (code : Code) => code = .ok
  | .exists _, (code : Code) => code = .ok
  | .set _ _, (code : Code) => code = .ok

variable (legal : Bytes → Bool)

/-- The commands of a session, with the last success written down. -/
def watching (session : Nat) : Handler Client Watched := fun c w =>
  match handler legal session c w.server with
  | (reply, server) =>
      (reply, ⟨server, if granted c reply then some ⟨c, w.server.tree, server.tree⟩ else w.last⟩)

/-- What happens beside a session: requests and ends of other sessions, and its own connection coming and
going. -/
inductive Outside
  | request (session : Nat) (c : ClientCmd)
  | ends (session : Nat)
  | connection (connected : Bool)
  deriving DecidableEq

def outside : Outside → Watched → Watched
  | .request session c, w =>
      { w with server.tree := (handler legal session c { w.server with connected := true }).2.tree }
  | .ends session, w => { w with server.tree := endSession session w.server.tree }
  | .connection connected, w => { w with server.connected := connected }

/-- The requests that make or write the node. -/
def Makes (path data : Bytes) (c : ClientCmd) : Prop := c = .create path data true ∨ c = .set path data

/-- A program that returns true only behind a request that made or wrote the node. -/
def EndsWell (path data : Bytes) : Program Client Bool → Prop
  | .done _ => True
  | .call c next => ∀ reply : Client.Reply c,
      ((next reply).result? = some true → Makes path data c ∧ granted c reply = true) ∧
        EndsWell path data (next reply)

variable {legal : Bytes → Bool} {path data : Bytes}

theorem setData_endsWell (path data : Bytes) : EndsWell path data (setData path data) := by
  intro (connected : Bool)
  cases connected with
  | false => exact ⟨fun h => (nomatch h), trivial⟩
  | true =>
      refine ⟨fun h => (nomatch h), fun (rc : Code) => ⟨fun h => ⟨.inr rfl, ?_⟩, trivial⟩⟩
      exact Option.some.inj h

theorem recoverNode_endsWell (path data : Bytes) : EndsWell path data (recoverNode path data) := by
  have hcreate : EndsWell path data (.call (.create path data true) fun (rc : Code) =>
      if rc = .ok then pure true else setData path data) := by
    intro (rc : Code)
    by_cases hrc : rc = .ok
    · simp only [hrc, if_true]
      exact ⟨fun _ => ⟨.inl rfl, rfl⟩, trivial⟩
    · simp only [hrc, if_false]
      exact ⟨fun h => (nomatch h), setData_endsWell path data⟩
  intro (connected : Bool)
  cases connected with
  | false => exact ⟨fun h => (nomatch h), setData_endsWell path data⟩
  | true =>
      refine ⟨fun h => (nomatch h), fun (rc : Code) => ?_⟩
      cases rc with
      | ok | noNode => exact ⟨fun h => (nomatch h), hcreate⟩
      | nodeExists | notEmpty | noChildrenForEphemerals | badArguments | connectionLoss =>
          exact ⟨fun h => (nomatch h), setData_endsWell path data⟩

theorem createNode_endsWell (path data : Bytes) : EndsWell path data (createNode path data true) := by
  intro (connected : Bool)
  cases connected with
  | false => exact ⟨fun h => (nomatch h), trivial⟩
  | true =>
      refine ⟨fun h => (nomatch h), fun (rc : Code) => ?_⟩
      cases rc with
      | ok => exact ⟨fun _ => ⟨.inl rfl, rfl⟩, trivial⟩
      | nodeExists => exact ⟨fun h => (nomatch h), recoverNode_endsWell path data⟩
      | noNode | notEmpty | noChildrenForEphemerals | badArguments | connectionLoss =>
          exact ⟨fun h => (nomatch h), trivial⟩

/-- The node holds the data and is owned by the session: it goes when that session ends, and when no other
does. -/
structure Owned (session : Nat) (path data : Bytes) (t : Tree) : Prop where
  node : t.node path = some ⟨data, some session⟩
  lives : ∀ n, (endSession n t).node path = if n = session then none else some ⟨data, some session⟩

/-- What the last request tells: a create makes the session the owner, a write keeps the owner there is. -/
inductive Told (session : Nat) (path data : Bytes) (s : Success) : Prop
  | created (request : s.request = .create path data true) (owned : Owned session (cString path) data s.after)
  | written (request : s.request = .set path data) (node : s.after.node (cString path) =
      some ⟨data, (s.before.node (cString path)).bind Node.owner⟩)

theorem zooCreate_owned {session : Nat} {t t' : Tree}
    (h : zooCreate legal session path data true t = (.ok, t')) : Owned session (cString path) data t' := by
  rcases zooCreate_cases legal session path data true t with
    ⟨-, -, hpresent, -, hrun⟩ | ⟨-, -, hrun⟩ | ⟨code, hok, -, hrun, -⟩
  · obtain rfl : t ++ [(cString path, ⟨data, some session⟩)] = t' := congrArg Prod.snd (hrun.symm.trans h)
    have hnone := Tree.node_of_not_present hpresent
    refine ⟨by rw [Tree.node_append, hnone, if_pos rfl, Option.none_or], fun n => ?_⟩
    have hrest : (endSession n t).node (cString path) = none :=
      Tree.node_eq_none_iff.2 fun e he => Tree.node_eq_none_iff.1 hnone e (List.mem_of_mem_filter he)
    rw [endSession, List.filter_append]
    by_cases hn : n = session
    · subst hn
      rw [if_pos rfl, List.filter_cons_of_neg (by simp), List.filter_nil, List.append_nil]
      exact hrest
    · have hkeep : (some session : Option Nat) ≠ some n := fun h => hn (Option.some.inj h).symm
      rw [if_neg hn, List.filter_cons_of_pos (by simpa using hkeep), List.filter_nil, Tree.node_append]
      rw [endSession] at hrest
      rw [hrest, Option.none_or, if_pos rfl]
  · cases hrun.symm.trans h
  · exact absurd (congrArg Prod.fst (hrun.symm.trans h)) hok

theorem zooSet_node {t t' : Tree} (h : zooSet legal path data t = (.ok, t')) :
    t'.node (cString path) = some ⟨data, (t.node (cString path)).bind Node.owner⟩ := by
  rcases zooSet_cases legal path data t with ⟨-, -, hnone, hrun⟩ | ⟨-, ⟨node, hnode⟩, hrun⟩ | ⟨code, hok, hrun, -⟩
  · obtain rfl : t ++ [(cString path, ⟨data, none⟩)] = t' := congrArg Prod.snd (hrun.symm.trans h)
    rw [Tree.node_append, hnone, if_pos rfl]
    rfl
  · obtain rfl : t.write (cString path) data = t' := congrArg Prod.snd (hrun.symm.trans h)
    rw [Tree.node_write, if_pos rfl, hnode]
    rfl
  · exact absurd (congrArg Prod.fst (hrun.symm.trans h)) hok

/-- A request that made or wrote the node tells who owns it. -/
theorem told_of_makes {session : Nat} {c : ClientCmd} {w : Watched} (hc : Makes path data c)
    (hgranted : granted c (handler legal session c w.server).1 = true) :
    Told session path data ⟨c, w.server.tree, (handler legal session c w.server).2.tree⟩ := by
  obtain ⟨⟨tree, connected⟩, last⟩ := w
  cases connected with
  | false => rcases hc with rfl | rfl <;> cases hgranted
  | true =>
      rcases hc with rfl | rfl
      · have hrun : zooCreate legal session path data true tree = (.ok, _) :=
          Prod.ext (of_decide_eq_true hgranted) rfl
        exact .created rfl (zooCreate_owned hrun)
      · have hrun : zooSet legal path data tree = (.ok, _) := Prod.ext (of_decide_eq_true hgranted) rfl
        exact .written rfl (zooSet_node hrun)

/-- The call is on its way, or has returned and its last success tells who owns the node. -/
structure Owning (session : Nat) (path data : Bytes) (s : System Client Watched Bool) : Prop where
  one : ∃ p, s.threads = [p] ∧ EndsWell path data p ∧
    (p.result? = some true → ∃ success, s.shared.last = some success ∧ Told session path data success)

theorem Owning.move {session : Nat} {s : System Client Watched Bool} (h : Owning session path data s)
    (m : Move Outside) : Owning session path data (System.move (watching legal session) (outside legal) m s) := by
  obtain ⟨p, hthreads, hends, hlast⟩ := h.one
  rcases System.move_cases (watching legal session) (outside legal) m s with
    ⟨i, c, next, -, hi, hmove⟩ | ⟨e, -, hmove⟩ | ⟨i, -, -, hmove⟩
  · rw [hthreads] at hi
    obtain ⟨rfl, rfl⟩ : i = 0 ∧ p = .call c next := by
      cases i with
      | zero => exact ⟨rfl, Option.some.inj hi⟩
      | succ i => cases hi
    rw [hmove, hthreads]
    obtain ⟨hmakes, hends⟩ := hends (watching legal session c s.shared).1
    refine ⟨_, rfl, hends, fun hresult => ?_⟩
    obtain ⟨hc, hgranted⟩ := hmakes hresult
    exact ⟨_, if_pos hgranted, told_of_makes hc hgranted⟩
  · rw [hmove]
    refine ⟨p, hthreads, hends, fun hresult => ?_⟩
    obtain ⟨success, hsuccess, htold⟩ := hlast hresult
    exact ⟨success, by cases e <;> exact hsuccess, htold⟩
  · rw [hmove]
    exact h

variable (legal) in
/-- The call alone on its thread, behind a schedule. -/
def playCreate (session : Nat) (path data : Bytes) (server : Server) (schedule : List (Move Outside)) :
    System Client Watched Bool :=
  System.play (watching legal session) (outside legal) schedule ⟨⟨server, none⟩, [createNode path data true]⟩

variable (legal) in
/-- Behind a schedule at whose end the call has returned true, its session owns the node. -/
def CreatorOwns (session : Nat) (path data : Bytes) (server : Server) (schedule : List (Move Outside)) : Prop :=
  (playCreate legal session path data server schedule).threads.map Program.result? = [some true] →
    ∃ success, (playCreate legal session path data server schedule).shared.last = some success ∧
      Owned session (cString path) data success.after

/-- **Whose node it is.** When `CreateNode` has returned true, its last request that succeeded has left the node
with the data: a create has made it the node of the session, which goes with the session; the write of the
recovery has left it to whoever owned it before. -/
theorem createNode_told (legal : Bytes → Bool) (session : Nat) (path data : Bytes) (server : Server)
    (schedule : List (Move Outside))
    (hdone : (playCreate legal session path data server schedule).threads.map Program.result? = [some true]) :
    ∃ success, (playCreate legal session path data server schedule).shared.last = some success ∧
      Told session path data success := by
  have hstart : Owning session path data ⟨⟨server, none⟩, [createNode path data true]⟩ :=
    ⟨_, rfl, createNode_endsWell path data, fun h => nomatch h⟩
  have howning : Owning session path data (playCreate legal session path data server schedule) :=
    System.play_always (watching legal session) (outside legal) (fun s m h => h.move m) schedule _ hstart
  obtain ⟨p, hthreads, -, hlast⟩ := howning.one
  rw [hthreads, List.map_cons, List.map_nil, List.cons.injEq] at hdone
  exact hlast hdone.1

/-- The node of a session that has gone is still there; another session recreates it between the delete and the
create of the recovery. -/
def recoveryRace : List (Move Outside) :=
  List.replicate 4 (.thread 0) ++ .outside (.request 2 (.create (ascii "/a") (ascii "theirs") true)) ::
    List.replicate 3 (.thread 0)

def staleServer : Server := ⟨[(ascii "/a", ⟨ascii "stale", some 0⟩)], true⟩

theorem createNode_told_race : ∃ success,
    (playCreate (fun _ => true) 1 (ascii "/a") (ascii "ours") staleServer recoveryRace).shared.last = some success ∧
      Told 1 (ascii "/a") (ascii "ours") success :=
  createNode_told (fun _ => true) 1 (ascii "/a") (ascii "ours") staleServer recoveryRace (by decide +kernel)

/-- `CreateNode` returns true and the node is the other session's. -/
theorem recoveryRace_others :
    (playCreate (fun _ => true) 1 (ascii "/a") (ascii "ours") staleServer recoveryRace).shared.server.tree =
      [(ascii "/a", ⟨ascii "ours", some 2⟩)] ∧
    ¬ CreatorOwns (fun _ => true) 1 (ascii "/a") (ascii "ours") staleServer recoveryRace := by
  refine ⟨by decide +kernel, fun h => ?_⟩
  obtain ⟨success, hlast, howned⟩ := h (by decide +kernel)
  have hnode : ((playCreate (fun _ => true) 1 (ascii "/a") (ascii "ours") staleServer recoveryRace).shared.last.map
      fun s => s.after.node (cString (ascii "/a"))) = some (some ⟨ascii "ours", some 2⟩) := by decide +kernel
  rw [hlast, Option.map_some, howned.node] at hnode
  revert hnode
  decide +kernel

end AccountService.ZooKeeper
