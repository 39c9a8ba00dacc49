import AccountService.ModelSubscription
import AccountService.RegistryNodes

/-! What a handler may still do when `Unsubscribe` returns. A handler looks at the watches once, at its
beginning; behind that look it stores its list whatever has been erased in the meantime, and a callback that it
has copied it starts. -/

namespace AccountService.Subscription

open Interaction

variable {α κ : Type} {client : Client α} {s : State α κ}

/-- What a handler does. -/
def Handles : SubscriptionCmd α κ → Prop
  | .isConnected | .findWatch | .getChildren | .getData _ | .wgetChildren | .storeCache _ | .logSize
  | .findCallback | .startCallback _ => True
  | _ => False

/-- What a handler may do when the service is no longer subscribed. -/
def Harmless : SubscriptionCmd α κ → Prop
  | .isConnected | .findWatch | .getChildren | .getData _ | .wgetChildren | .logSize | .findCallback => True
  | .storeCache instances => instances = []
  | _ => False

/-- What `Unsubscribe` does. -/
def Erases : SubscriptionCmd α κ → Prop
  | .eraseWatch | .eraseCallback | .eraseCache => True
  | _ => False

/-- The replies when there is neither a watch nor a callback. -/
def Bare : (c : SubscriptionCmd α κ) → (Commands α κ).Reply c → Prop
  | .findWatch, (found : Bool) => found = false
  | .findCallback, (callback : Option κ) => callback = none
  | .getData _, (data : Bytes) => data.length ≤ maxDataSize
  | _, _ => True

/-- A handler that neither stores instances nor starts a callback any more. -/
def Spent (p : Program (Commands α κ) Unit) : Prop := p.Within Harmless Bare fun _ => True

variable (client) in
/-- Until the next `Subscribe`, the cached list is empty and no move starts the callback. -/
def StaysEmpty (s : State α κ) : Prop :=
  ∀ later : List (Move κ), (∀ callback, .subscribe callback ∉ later) →
    (play client later s).getInstances = [] ∧
      ∀ m, (step client (play client later s) m).started = (play client later s).started

/-- There is neither a watch nor a callback. -/
structure Cleared (s : State α κ) : Prop where
  watched : s.watched = false
  callback : s.callback = none

@[simp] theorem play_nil (client : Client α) (s : State α κ) : play client [] s = s := rfl

@[simp] theorem play_cons (client : Client α) (m : Move κ) (later : List (Move κ)) (s : State α κ) :
    play client (m :: later) s = play client later (step client s m) := rfl

theorem bare_reply (h : Cleared s) (c : SubscriptionCmd α κ) : Bare c (s.reply c) := by
  cases c with
  | findWatch => exact h.watched
  | findCallback => exact h.callback
  | getData child =>
      show (if s.connected then _ else _ : Bytes).length ≤ maxDataSize
      split
      · exact List.length_take_le _ _
      · exact Nat.zero_le _
  | isConnected | storeWatch | eraseWatch | getChildren | wgetChildren | storeCache _ | logSize | eraseCache
  | storeCallback _ | eraseCallback | startCallback _ => trivial

/-- What holds from the return of `Unsubscribe` on. -/
structure Ended (s : State α κ) : Prop extends Cleared s where
  empty : s.getInstances = []
  user : s.user.Uses Erases
  handlers : ∀ p ∈ s.handlers, Spent p

variable (client) in
/-- A handler that has still to read the nodes `todo` and to store its list. -/
def collecting (instances : List α) (todo : List Bytes) : Program (Commands α κ) Unit :=
  ((readNodes client instances todo >>= fun all => .call (.storeCache all) fun _ => logRefreshed client) >>=
    fun _ => notifyUser) >>= fun _ => resetWatch

variable (client) in
/-- The points of a handler. It is pending from its look at the watches until it has stored its list, unless
the list is complete and empty, and from its copy of a callback until it has started it. -/
inductive Point : Bool → Program (Commands α κ) Unit → Prop
  | waiting (path : Bytes) : Point false (handleChildEvent client path)
  | refreshing : Point true ((refreshInstances client >>= fun _ => notifyUser) >>= fun _ => resetWatch)
  | listing : Point true (.call .getChildren fun children => collecting client [] children)
  | reading (instances : List α) (child : Bytes) (todo : List Bytes) :
      Point true (collecting client instances (child :: todo))
  | storing (instances : List α) (hsome : instances ≠ []) : Point true (collecting client instances [])
  | storingNothing : Point false (collecting client [] [])
  | logging : Point false (.call .logSize fun _ => notifyUser >>= fun _ => resetWatch)
  | finding : Point false (notifyUser >>= fun _ => resetWatch)
  | starting (callback : κ) : Point true (.call (.startCallback callback) fun _ => resetWatch)
  | resetting : Point false resetWatch
  | connecting : Point false (.call .isConnected fun (connected : Bool) =>
      if connected then .call .wgetChildren fun _ => pure () else pure ())
  | rewatching : Point false (.call .wgetChildren fun _ => pure ())
  | finished : Point false (.done ())

/-- Every point that the rest of a program can be at next satisfies `Q`. -/
def Next (Q : Program (Commands α κ) Unit → Prop) : Program (Commands α κ) Unit → Prop
  | .done _ => True
  | .call _ next => ∀ reply, Q (next reply)

theorem point_collecting (instances : List α) (todo : List Bytes) :
    ∃ pending, Point client pending (collecting client instances todo : Program (Commands α κ) Unit) := by
  cases todo with
  | cons child todo => exact ⟨true, .reading instances child todo⟩
  | nil =>
      cases instances with
      | nil => exact ⟨false, .storingNothing⟩
      | cons inst instances => exact ⟨true, .storing _ (List.cons_ne_nil _ _)⟩

theorem point_logged : ∃ pending, Point client pending
    ((logRefreshed client >>= fun _ => notifyUser) >>= fun _ => resetWatch : Program (Commands α κ) Unit) := by
  rw [logRefreshed]
  split
  · exact ⟨false, .logging⟩
  · exact ⟨false, .finding⟩

/-- **One step of a handler** leads from point to point. -/
theorem Point.next {pending : Bool} {p : Program (Commands α κ) Unit} (h : Point client pending p) :
    Next (fun p => ∃ pending, Point client pending p) p := by
  cases h with
  | waiting path =>
      intro (found : Bool)
      cases found with
      | false => exact ⟨false, .finished⟩
      | true =>
          show ∃ pending, Point client pending (onChildrenChanged client path >>= fun _ => resetWatch)
          rw [onChildrenChanged]
          split
          · exact ⟨false, .resetting⟩
          · exact ⟨true, .refreshing⟩
  | refreshing =>
      intro (connected : Bool)
      cases connected with
      | false => exact ⟨false, .finding⟩
      | true => exact ⟨true, .listing⟩
  | listing => exact fun children => point_collecting [] children
  | reading instances child todo => exact fun data => point_collecting _ todo
  | storing instances hsome => exact fun _ => point_logged
  | storingNothing => exact fun _ => point_logged
  | logging => exact fun _ => ⟨false, .finding⟩
  | finding =>
      intro (callback : Option κ)
      cases callback with
      | none => exact ⟨false, .resetting⟩
      | some callback => exact ⟨true, .starting callback⟩
  | starting callback => exact fun _ => ⟨false, .resetting⟩
  | resetting =>
      intro (found : Bool)
      cases found with
      | false => exact ⟨false, .finished⟩
      | true => exact ⟨false, .connecting⟩
  | connecting =>
      intro (connected : Bool)
      cases connected with
      | false => exact ⟨false, .finished⟩
      | true => exact ⟨false, .rewatching⟩
  | rewatching => exact fun _ => ⟨false, .finished⟩
  | finished => trivial

theorem spent_resetWatch : Spent (resetWatch : Program (Commands α κ) Unit) := by
  refine ⟨trivial, fun (found : Bool) hfound => ?_⟩
  obtain rfl : found = false := hfound
  trivial

theorem spent_finding : Spent (notifyUser >>= fun _ => resetWatch : Program (Commands α κ) Unit) := by
  refine ⟨trivial, fun (callback : Option κ) hcallback => ?_⟩
  obtain rfl : callback = none := hcallback
  exact spent_resetWatch

/-- A handler that is not pending is spent. -/
theorem Point.spent {p : Program (Commands α κ) Unit} (h : Point client false p) : Spent p := by
  generalize hpending : false = pending at h
  cases h with
  | refreshing | listing | reading _ _ _ | storing _ _ | starting _ => cases hpending
  | waiting path =>
      refine ⟨trivial, fun (found : Bool) hfound => ?_⟩
      obtain rfl : found = false := hfound
      trivial
  | storingNothing =>
      refine ⟨rfl, fun _ _ => ?_⟩
      show Spent ((logRefreshed client >>= fun _ => notifyUser) >>= fun _ => resetWatch)
      rw [logRefreshed]
      split
      · exact ⟨trivial, fun _ _ => spent_finding⟩
      · exact spent_finding
  | logging => exact ⟨trivial, fun _ _ => spent_finding⟩
  | finding => exact spent_finding
  | resetting => exact spent_resetWatch
  | connecting =>
      refine ⟨trivial, fun (connected : Bool) _ => ?_⟩
      cases connected with
      | false => trivial
      | true => exact ⟨trivial, fun _ _ => trivial⟩
  | rewatching => exact ⟨trivial, fun _ _ => trivial⟩
  | finished => trivial

theorem handleChildEvent_spent (client : Client α) (path : Bytes) :
    Spent (handleChildEvent client path : Program (Commands α κ) Unit) :=
  (Point.waiting path : Point client false _).spent

/-- Some text is the data of an instance. -/
def Decodes (client : Client α) : Prop := ∃ data, data.length ≤ maxDataSize ∧ readInstance client.decode data ≠ []

/-- The list that is stored at the end is not empty, if there is something in it or a node still to read. -/
theorem collecting_not_spent (hdecodes : Decodes client) (todo : List Bytes) :
    ∀ instances : List α, instances ≠ [] ∨ todo ≠ [] →
      ¬ Spent (collecting client instances todo : Program (Commands α κ) Unit) := by
  obtain ⟨data, hlength, hdata⟩ := hdecodes
  induction todo with
  | nil =>
      rintro instances (hsome | hsome) hspent
      · exact hsome hspent.1
      · exact hsome rfl
  | cons child todo ih =>
      intro instances _ hspent
      have hnext : Spent (collecting client (instances ++ readInstance client.decode data) todo :
          Program (Commands α κ) Unit) := hspent.2 data hlength
      exact ih _ (.inl (List.append_ne_nil_of_right_ne_nil _ hdata)) hnext

theorem listing_not_spent (hdecodes : Decodes client) :
    ¬ Spent (.call .getChildren fun children => collecting client [] children :
      Program (Commands α κ) Unit) := fun hspent =>
  collecting_not_spent hdecodes [[]] [] (.inr (List.cons_ne_nil _ _)) (hspent.2 [[]] trivial)

/-- A pending handler can still store an instance or start the callback. -/
theorem Point.not_spent (hdecodes : Decodes client) {p : Program (Commands α κ) Unit}
    (h : Point client true p) : ¬ Spent p := by
  generalize hpending : true = pending at h
  cases h with
  | waiting _ | storingNothing | logging | finding | resetting | connecting | rewatching | finished => cases hpending
  | refreshing => exact fun hspent => listing_not_spent hdecodes (hspent.2 true trivial)
  | listing => exact listing_not_spent hdecodes
  | reading instances child todo => exact collecting_not_spent hdecodes _ _ (.inr (List.cons_ne_nil _ _))
  | storing instances hsome => exact collecting_not_spent hdecodes _ _ (.inl hsome)
  | starting callback => exact fun hspent => hspent.1

theorem Cleared.erase (h : Cleared s) {c : SubscriptionCmd α κ} (hc : Erases c) : Cleared (s.effect c) := by
  cases c with
  | eraseWatch => exact ⟨rfl, h.callback⟩
  | eraseCallback => exact ⟨h.watched, rfl⟩
  | eraseCache => exact ⟨h.watched, h.callback⟩
  | isConnected | findWatch | storeWatch | getChildren | getData _ | wgetChildren | storeCache _ | logSize
  | findCallback | storeCallback _ | startCallback _ => exact absurd hc id

theorem Handles.keepsMaps {c : SubscriptionCmd α κ} (hc : Handles c) (s : State α κ) :
    (s.effect c).watched = s.watched ∧ (s.effect c).callback = s.callback := by
  cases c with
  | eraseWatch | eraseCallback | eraseCache | storeWatch | storeCallback _ => exact absurd hc id
  | isConnected | findWatch | getChildren | getData _ | wgetChildren | storeCache _ | logSize | findCallback
  | startCallback _ => exact ⟨rfl, rfl⟩

theorem Cleared.handle (h : Cleared s) {c : SubscriptionCmd α κ} (hc : Handles c) : Cleared (s.effect c) :=
  ⟨(hc.keepsMaps s).1.trans h.watched, (hc.keepsMaps s).2.trans h.callback⟩

theorem Harmless.handles {c : SubscriptionCmd α κ} (hc : Harmless c) : Handles c := by
  cases c <;> trivial

/-- What a harmless command leaves as it is. -/
theorem Harmless.effect {c : SubscriptionCmd α κ} (hc : Harmless c) (hempty : s.getInstances = []) :
    (s.effect c).getInstances = [] ∧ (s.effect c).started = s.started := by
  cases c with
  | storeCache instances =>
      obtain rfl : instances = [] := hc
      exact ⟨rfl, rfl⟩
  | logSize => exact ⟨hempty, rfl⟩
  | isConnected | findWatch | getChildren | getData _ | wgetChildren | findCallback => exact ⟨hempty, rfl⟩
  | storeWatch | eraseWatch | eraseCache | storeCallback _ | eraseCallback | startCallback _ =>
      exact absurd hc id

theorem Erases.effect {c : SubscriptionCmd α κ} (hc : Erases c) (hempty : s.getInstances = []) :
    (s.effect c).getInstances = [] ∧ (s.effect c).started = s.started := by
  cases c with
  | eraseCache => exact ⟨rfl, rfl⟩
  | eraseWatch | eraseCallback => exact ⟨hempty, rfl⟩
  | isConnected | findWatch | storeWatch | getChildren | getData _ | wgetChildren | storeCache _ | logSize
  | findCallback | storeCallback _ | startCallback _ => exact absurd hc id

theorem effect_threads (s : State α κ) (c : SubscriptionCmd α κ) :
    (s.effect c).user = s.user ∧ (s.effect c).handlers = s.handlers := by
  cases c <;> exact ⟨rfl, rfl⟩

/-- What a handler can do: it issues its next command, or nothing happens. -/
theorem advanceHandler_cases (s : State α κ) (i : Nat) :
    (∃ c next, s.handlers[i]? = some (.call c next) ∧ s.advanceHandler i =
      { s.effect c with handlers := s.handlers.set i (next (s.reply c)) }) ∨ s.advanceHandler i = s := by
  rw [State.advanceHandler]
  cases s.handlers[i]? with
  | none => exact .inr rfl
  | some p =>
      cases p with
      | done _ => exact .inr rfl
      | call c next => exact .inl ⟨c, next, rfl, rfl⟩

/-- What the call of the user can do. -/
theorem advanceUser_cases (s : State α κ) :
    (∃ c next, s.user = .call c next ∧ s.advanceUser = { s.effect c with user := next (s.reply c) }) ∨
      s.advanceUser = s := by
  rw [State.advanceUser]
  cases s.user with
  | done _ => exact .inr rfl
  | call c next => exact .inl ⟨c, next, rfl, rfl⟩

theorem unsubscribe_erases : (unsubscribe : Program (Commands α κ) Unit).Uses Erases :=
  ⟨trivial, fun _ => ⟨trivial, fun _ => ⟨trivial, fun _ => trivial⟩⟩⟩

/-- A call of the user begins, or nothing happens. -/
theorem start_cases (s : State α κ) (call : Program (Commands α κ) Unit) :
    s.start call = { s with user := call } ∨ s.start call = s := by
  rw [State.start]
  cases s.user with
  | done _ => exact .inl rfl
  | call c next => exact .inr rfl

/-- **One move** when the service is no longer subscribed. -/
theorem Ended.step (h : Ended s) (m : Move κ) :
    (step client s m).started = s.started ∧
      ((∀ callback, m ≠ .subscribe callback) → Ended (Subscription.step client s m)) := by
  cases m with
  | subscribe callback =>
      refine ⟨?_, fun hm => absurd rfl (hm callback)⟩
      rcases start_cases s (subscribe client callback) with hstart | hstart
      · rw [Subscription.step, hstart]
      · rw [Subscription.step, hstart]
  | unsubscribe =>
      rcases start_cases s unsubscribe with hstart | hstart
      · rw [Subscription.step, hstart]
        exact ⟨rfl, fun _ => ⟨⟨h.watched, h.callback⟩, h.empty, unsubscribe_erases, h.handlers⟩⟩
      · rw [Subscription.step, hstart]
        exact ⟨rfl, fun _ => h⟩
  | user =>
      rcases advanceUser_cases s with ⟨c, next, huser, hmove⟩ | hmove
      · have huses := h.user
        rw [huser] at huses
        obtain ⟨hempty, hstarted⟩ := Erases.effect huses.1 h.empty
        have hcleared := h.toCleared.erase huses.1
        rw [Subscription.step, hmove]
        refine ⟨hstarted, fun _ => ⟨⟨hcleared.watched, hcleared.callback⟩, hempty, huses.2 _, ?_⟩⟩
        exact (effect_threads s c).2 ▸ h.handlers
      · rw [Subscription.step, hmove]
        exact ⟨rfl, fun _ => h⟩
  | event =>
      refine ⟨rfl, fun _ => ⟨⟨h.watched, h.callback⟩, h.empty, h.user, fun p hp => ?_⟩⟩
      rcases List.mem_append.1 hp with hp | hp
      · exact h.handlers p hp
      · rw [List.mem_singleton.1 hp]
        exact handleChildEvent_spent client _
  | handler i =>
      rcases advanceHandler_cases s i with ⟨c, next, hi, hmove⟩ | hmove
      · have hspent := h.handlers _ (List.mem_of_getElem? hi)
        obtain ⟨hempty, hstarted⟩ := Harmless.effect hspent.1 h.empty
        have hcleared := h.toCleared.handle hspent.1.handles
        rw [Subscription.step, hmove]
        refine ⟨hstarted, fun _ => ⟨⟨hcleared.watched, hcleared.callback⟩, hempty, ?_, fun p hp => ?_⟩⟩
        · exact (effect_threads s c).1 ▸ h.user
        · rcases List.mem_or_eq_of_mem_set hp with hp | rfl
          · exact h.handlers p hp
          · exact hspent.2 _ (bare_reply h.toCleared c)
      · rw [Subscription.step, hmove]
        exact ⟨rfl, fun _ => h⟩
  | server connected children =>
      exact ⟨rfl, fun _ => ⟨⟨h.watched, h.callback⟩, h.empty, h.user, h.handlers⟩⟩

theorem Ended.staysEmpty (h : Ended s) : StaysEmpty client s := by
  intro later
  induction later generalizing s with
  | nil => exact fun _ => ⟨h.empty, fun m => (h.step m).1⟩
  | cons m later ih =>
      intro hlater
      have hm : ∀ callback, m ≠ .subscribe callback := fun callback heq =>
        hlater callback (heq ▸ List.mem_cons_self)
      exact ih ((h.step m).2 hm) fun callback hmem => hlater callback (List.mem_cons_of_mem _ hmem)

theorem StaysEmpty.after (h : StaysEmpty client s) {m : Move κ} (hm : ∀ callback, m ≠ .subscribe callback) :
    StaysEmpty client (step client s m) := fun later hlater =>
  h (m :: later) fun callback hmem => (List.mem_cons.1 hmem).elim (fun heq => hm callback heq.symm) (hlater callback)

/-- A state of the server in which the reply is the given one. -/
theorem exists_reply (client : Client α) (h : Cleared s) {c : SubscriptionCmd α κ} (reply : (Commands α κ).Reply c)
    (hreply : Bare c reply) : ∃ connected children,
      State.reply (Subscription.step client s (.server connected children)) c = reply := by
  cases c with
  | isConnected => exact ⟨reply, [], rfl⟩
  | findWatch => exact ⟨true, [], h.watched.trans (Eq.symm hreply)⟩
  | findCallback => exact ⟨true, [], h.callback.trans (Eq.symm hreply)⟩
  | getChildren =>
      refine ⟨true, List.map (fun name => (name, [])) (reply : List Bytes), ?_⟩
      show List.map Prod.fst (List.map (fun name => (name, [])) (reply : List Bytes)) = reply
      rw [List.map_map]
      exact List.map_id _
  | getData child =>
      refine ⟨true, [(child, reply)], ?_⟩
      show ((List.lookup child [(child, (reply : Bytes))]).getD []).take maxDataSize = reply
      rw [List.lookup_cons_self, Option.getD_some]
      exact List.take_of_length_le hreply
  | storeWatch | eraseWatch | wgetChildren | storeCache _ | logSize | eraseCache | storeCallback _
  | eraseCallback | startCallback _ => exact ⟨true, [], rfl⟩

/-- If the cache stays empty and no callback is started, every handler in flight is spent: the server can give
it any replies, and it can be the only one that moves. -/
theorem StaysEmpty.spent {i : Nat} {p : Program (Commands α κ) Unit} (hhandles : p.Uses Handles) :
    ∀ {s : State α κ}, StaysEmpty client s → Cleared s → s.handlers[i]? = some p → Spent p := by
  induction p with
  | done _ => exact fun _ _ _ => trivial
  | call c next ih =>
      intro s h hcleared hi
      have hmove : ∀ s : State α κ, s.handlers[i]? = some (.call c next) →
          step client s (.handler i) = { s.effect c with handlers := s.handlers.set i (next (s.reply c)) } :=
        fun s hi => by simp only [step, State.advanceHandler, hi]
      refine ⟨?_, fun reply hreply => ?_⟩
      · cases c with
        | storeCache instances =>
            have hempty := (h [.handler i] fun callback hmem => (nomatch List.mem_singleton.1 hmem)).1
            rw [play_cons, play_nil, hmove s hi] at hempty
            exact hempty
        | startCallback callback =>
            have hstarted := (h [] fun callback => List.not_mem_nil).2 (.handler i)
            rw [play_nil, hmove s hi] at hstarted
            exact absurd hstarted (List.cons_ne_self _ _)
        | storeWatch | eraseWatch | eraseCache | storeCallback _ | eraseCallback => exact hhandles.1
        | isConnected | findWatch | getChildren | getData _ | wgetChildren | logSize | findCallback => trivial
      · obtain ⟨connected, children, hserver⟩ := exists_reply client hcleared reply hreply
        have hserved := (h.after fun callback heq => nomatch heq : StaysEmpty client
          (step client s (.server connected children)))
        have hnext := hserved.after (m := .handler i) fun callback heq => nomatch heq
        have hclearedServed : Cleared (step client s (.server connected children)) :=
          ⟨hcleared.watched, hcleared.callback⟩
        have hclearedNext := hclearedServed.handle hhandles.1
        have hserved' : (step client s (.server connected children)).handlers[i]? = some (.call c next) := hi
        rw [hmove _ hserved', hserver] at hnext
        refine ih reply (hhandles.2 reply) hnext ⟨hclearedNext.watched, hclearedNext.callback⟩ ?_
        have hlt : i < s.handlers.length := (List.getElem?_eq_some_iff.1 hi).1
        exact List.getElem?_set_self hlt

theorem Handles.keeps {c : SubscriptionCmd α κ} (hc : Handles c) : ¬ Erases c := by
  cases c <;> first | exact id | exact absurd hc id

theorem readNodes_handles (client : Client α) (todo : List Bytes) :
    ∀ instances, (readNodes client instances todo : Program (Commands α κ) (List α)).Uses Handles := by
  induction todo with
  | nil => exact fun _ => trivial
  | cons child todo ih => exact fun _ => ⟨trivial, fun _ => ih _⟩

theorem refreshInstances_handles (client : Client α) :
    (refreshInstances client : Program (Commands α κ) Unit).Uses Handles := by
  refine ⟨trivial, fun (connected : Bool) => ?_⟩
  cases connected with
  | false => trivial
  | true =>
      refine ⟨trivial, fun children => ?_⟩
      refine (readNodes_handles client children []).bind fun instances => ⟨trivial, fun _ => ?_⟩
      rw [logRefreshed]
      split
      · exact ⟨trivial, fun _ => trivial⟩
      · trivial

theorem handleChildEvent_handles (client : Client α) (path : Bytes) :
    (handleChildEvent client path : Program (Commands α κ) Unit).Uses Handles := by
  have hreset : (resetWatch : Program (Commands α κ) Unit).Uses Handles := by
    refine ⟨trivial, fun (found : Bool) => ?_⟩
    cases found with
    | false => trivial
    | true =>
        refine ⟨trivial, fun (connected : Bool) => ?_⟩
        cases connected with
        | false => trivial
        | true => exact ⟨trivial, fun _ => trivial⟩
  have hnotify : (notifyUser : Program (Commands α κ) Unit).Uses Handles := by
    refine ⟨trivial, fun (callback : Option κ) => ?_⟩
    cases callback with
    | none => trivial
    | some callback => exact ⟨trivial, fun _ => trivial⟩
  refine ⟨trivial, fun (found : Bool) => ?_⟩
  cases found with
  | false => trivial
  | true =>
      refine Program.Uses.bind ?_ fun _ => hreset
      rw [onChildrenChanged]
      split
      · trivial
      · exact (refreshInstances_handles client).bind fun _ => hnotify

theorem subscribe_keeps (client : Client α) (callback : Option κ) :
    (subscribe client callback).Uses fun c => ¬ Erases c := by
  refine ⟨id, fun (connected : Bool) => ?_⟩
  cases connected with
  | false => trivial
  | true =>
      have hwatch : (watchChildren : Program (Commands α κ) Unit).Uses fun c => ¬ Erases c := by
        refine ⟨id, fun (connected : Bool) => ?_⟩
        cases connected with
        | false => trivial
        | true => exact ⟨id, fun _ => ⟨id, fun _ => trivial⟩⟩
      have hrefresh := (refreshInstances_handles (κ := κ) client).mono fun _ hc => hc.keeps
      refine Program.Uses.bind ?_ fun _ => hrefresh.bind fun _ => hwatch
      cases callback with
      | none => trivial
      | some callback => exact ⟨id, fun _ => trivial⟩

/-- How far the call of the user is. -/
inductive Calling (s : State α κ) : Prop
  | other (h : s.user.Uses fun c => ¬ Erases c)
  | first (h : s.user = unsubscribe)
  | second (h : s.user = .call .eraseCallback fun _ => .call .eraseCache fun _ => pure ())
      (hwatched : s.watched = false)
  | last (h : s.user = .call .eraseCache fun _ => pure ()) (hcleared : Cleared s)

variable (client) in
/-- What holds in every state. -/
structure Running (s : State α κ) : Prop where
  calling : Calling s
  points : ∀ p ∈ s.handlers, (∃ pending, Point client pending p) ∧ p.Uses Handles

/-- The call of the user stays where it is when the others move. -/
theorem Calling.congr {s' : State α κ} (h : Calling s) (huser : s'.user = s.user)
    (hwatched : s'.watched = s.watched) (hcallback : s'.callback = s.callback) : Calling s' := by
  cases h with
  | other h => exact .other (huser ▸ h)
  | first h => exact .first (huser.trans h)
  | second h hw => exact .second (huser.trans h) (hwatched.trans hw)
  | last h hc => exact .last (huser.trans h) ⟨hwatched.trans hc.watched, hcallback.trans hc.callback⟩

theorem Calling.advance (h : Calling s) : Calling s.advanceUser := by
  cases h with
  | first h =>
      rw [State.advanceUser, h]
      exact .second rfl rfl
  | second h hwatched =>
      rw [State.advanceUser, h]
      exact .last rfl ⟨hwatched, rfl⟩
  | last h _ =>
      rw [State.advanceUser, h]
      exact .other trivial
  | other h =>
      rcases advanceUser_cases s with ⟨c, next, huser, hmove⟩ | hmove
      · rw [hmove]
        rw [huser] at h
        exact .other (h.2 _)
      · rw [hmove]
        exact .other h

theorem Running.move (h : Running client s) (m : Move κ) : Running client (step client s m) := by
  have hstart : ∀ call : Program (Commands α κ) Unit, Calling { s with user := call } →
      Running client (s.start call) := fun call hcall => by
    rcases start_cases s call with hstart | hstart
    · rw [hstart]
      exact ⟨hcall, h.points⟩
    · rw [hstart]
      exact h
  cases m with
  | subscribe callback => exact hstart _ (.other (subscribe_keeps client callback))
  | unsubscribe => exact hstart _ (.first rfl)
  | user =>
      refine ⟨h.calling.advance, ?_⟩
      rcases advanceUser_cases s with ⟨c, next, -, hmove⟩ | hmove
      · rw [step, hmove]
        exact (effect_threads s c).2 ▸ h.points
      · rw [step, hmove]
        exact h.points
  | event =>
      refine ⟨h.calling.congr rfl rfl rfl, fun p hp => ?_⟩
      rcases List.mem_append.1 hp with hp | hp
      · exact h.points p hp
      · rw [List.mem_singleton.1 hp]
        exact ⟨⟨false, .waiting _⟩, handleChildEvent_handles client _⟩
  | handler i =>
      rcases advanceHandler_cases s i with ⟨c, next, hi, hmove⟩ | hmove
      · obtain ⟨⟨pending, hpoint⟩, hhandles⟩ := h.points _ (List.mem_of_getElem? hi)
        obtain ⟨hwatched, hcallback⟩ := hhandles.1.keepsMaps s
        rw [step, hmove]
        refine ⟨h.calling.congr (effect_threads s c).1 hwatched hcallback, fun p hp => ?_⟩
        rcases List.mem_or_eq_of_mem_set hp with hp | rfl
        · exact h.points p hp
        · exact ⟨hpoint.next _, hhandles.2 _⟩
      · rw [step, hmove]
        exact h
  | server connected children => exact ⟨h.calling.congr rfl rfl rfl, h.points⟩

theorem Running.after (moves : List (Move κ)) : ∀ {s : State α κ}, Running client s →
    Running client (play client moves s) := by
  induction moves with
  | nil => exact fun h => h
  | cons m moves ih => exact fun h => ih (h.move m)

/-- Before the last command of `Unsubscribe`, and behind it. -/
theorem Running.last (h : Running client s) (hlast : s.user.next? = some .eraseCache) :
    Cleared s ∧ step client s .user = { s with cache := none, user := .done () } := by
  cases h.calling with
  | first h =>
      rw [h] at hlast
      cases hlast
  | second h _ =>
      rw [h] at hlast
      cases hlast
  | last h hcleared =>
      refine ⟨hcleared, ?_⟩
      rw [step, State.advanceUser, h]
      rfl
  | other h =>
      cases huser : s.user with
      | done _ =>
          rw [huser] at hlast
          cases hlast
      | call c next =>
          rw [huser] at h hlast
          obtain rfl : c = .eraseCache := Option.some.inj hlast
          exact absurd trivial h.1

/-- **When Unsubscribe is final.** In every run, when `Unsubscribe` issues its last command: from its return until
the next `Subscribe` the list of instances stays empty and the callback is not started, whatever comes, if and
only if no handler in flight is pending. -/
theorem unsubscribe_final_iff (client : Client α) (hdecodes : Decodes client) (connected : Bool)
    (children : List (Bytes × Bytes)) (moves : List (Move κ))
    (hlast : (play client moves { connected := connected, children := children }).user.next? = some .eraseCache) :
    StaysEmpty client (step client (play client moves { connected := connected, children := children }) .user) ↔
      ∀ p ∈ (play client moves { connected := connected, children := children }).handlers,
        Point client false p := by
  have hfresh : Running client ({ connected := connected, children := children } : State α κ) :=
    ⟨.other trivial, fun p hp => nomatch hp⟩
  have hrunning := hfresh.after moves
  generalize play client moves { connected := connected, children := children } = s at hrunning hlast ⊢
  obtain ⟨hcleared, hreturned⟩ := hrunning.last hlast
  have hclearedReturned : Cleared ({ s with cache := none, user := .done () } : State α κ) :=
    ⟨hcleared.watched, hcleared.callback⟩
  rw [hreturned]
  constructor
  · intro hempty p hp
    obtain ⟨⟨pending, hpoint⟩, hhandles⟩ := hrunning.points p hp
    obtain ⟨i, hi⟩ := List.getElem?_of_mem hp
    have hspent := StaysEmpty.spent hhandles hempty hclearedReturned hi
    cases pending with
    | false => exact hpoint
    | true => exact absurd hspent (hpoint.not_spent hdecodes)
  · intro hpoints
    have hended : Ended ({ s with cache := none, user := .done () } : State α κ) :=
      ⟨hclearedReturned, rfl, trivial, fun p hp => (hpoints p hp).spent⟩
    exact hended.staysEmpty

def sampleClient : Client ServiceInstance :=
  { rootPath := ascii "/services", serviceName := ascii "user",
    decode := ServiceInstance.decodeNode ServiceRegistry.sampleLibrary 0, logged := true }

theorem sampleClient_decodes : Decodes sampleClient :=
  ⟨ServiceRegistry.sampleText 50051, by decide +kernel, by decide +kernel⟩

/-- A subscription with a callback, an instance that comes, its event, and `Unsubscribe` up to its last command,
when the handler has issued that many commands. -/
def eventBefore (commands : Nat) : List (Move Unit) :=
  .subscribe (some ()) :: List.replicate 9 .user ++
    [.server true [(ascii "10.0.0.1:50051", ServiceRegistry.sampleText 50051)], .event] ++
    List.replicate commands (.handler 0) ++ [.unsubscribe, .user, .user]

/-- The state before the last command of `Unsubscribe`. -/
def unsubscribing (commands : Nat) : State ServiceInstance Unit :=
  play sampleClient (eventBefore commands) { connected := true, children := [] }

theorem unsubscribe_final_iff_sample :
    StaysEmpty sampleClient (step sampleClient (unsubscribing 4) .user) ↔
      ∀ p ∈ (unsubscribing 4).handlers, Point sampleClient false p :=
  unsubscribe_final_iff sampleClient sampleClient_decodes true [] (eventBefore 4) (by decide +kernel)

/-- A handler that has read its list stores it behind the return of `Unsubscribe`, and one that has copied the
callback starts it. -/
theorem handler_survives :
    (play sampleClient [.user, .handler 0] (unsubscribing 4)).getInstances = [ServiceRegistry.sampleInstance] ∧
    (play sampleClient [.user] (unsubscribing 7)).started = [] ∧
    (play sampleClient [.user, .handler 0] (unsubscribing 7)).started = [()] ∧
    ¬ StaysEmpty sampleClient (step sampleClient (unsubscribing 4) .user) ∧
    ¬ StaysEmpty sampleClient (step sampleClient (unsubscribing 7) .user) := by
  have hstored : (play sampleClient [.user, .handler 0] (unsubscribing 4)).getInstances =
      [ServiceRegistry.sampleInstance] := by decide +kernel
  have hbefore : (play sampleClient [.user] (unsubscribing 7)).started = [] := by decide +kernel
  have hstarted : (play sampleClient [.user, .handler 0] (unsubscribing 7)).started = [()] := by decide +kernel
  refine ⟨hstored, hbefore, hstarted, fun h => ?_, fun h => ?_⟩
  · have hempty := (h [.handler 0] fun callback hmem => (nomatch List.mem_singleton.1 hmem)).1
    rw [play_cons, hempty] at hstored
    exact List.cons_ne_nil _ _ hstored.symm
  · have hkept := (h [] fun callback => List.not_mem_nil).2 (.handler 0)
    rw [play_cons, play_nil] at hbefore
    rw [play_cons, play_cons, play_nil] at hstarted
    rw [play_nil, hstarted, hbefore] at hkept
    exact List.cons_ne_nil _ _ hkept

end AccountService.Subscription
