import Rustchat.Calls.Handlers

/-!
# Session ids of participants

A participant who joins over HTTP gets a new session id; over the websocket it is that of the connection, unless the
client names another one in `originalConnID`, which may be that of somebody else. The participants of a call have
different session ids as long as nobody is added with that of another (`SessionIds.distinct_iff_own`,
`SessionIds.named_by_client`).
-/

namespace Rustchat.Calls

/-- A session id belongs to one participant. -/
def SessionsDistinct (call : CallState) : Prop :=
  ∀ u v p q, call.participants.lookup u = some p → call.participants.lookup v = some q → p.sessionId = q.sessionId →
    u = v

namespace SessionIds

/-- Jobs under way on a node that keeps its calls in memory. -/
abbrev Jobs := Pool CallManager Job ManagerAct ManagerAct.Res (Except AppError Reply)

abbrev step : Jobs → Pool.Input Job Unit → Option Jobs :=
  Pool.step (fun job => job.handler.run) fun _ _ => ManagerAct.run

/-- A participant is added only with a session id that no other participant of the call has. -/
def Own (jobs : Jobs) : Pool.Input Job Unit → Prop
  | .spawn _ _ => True
  | .step t _ => ∀ job callId p next, jobs.Performs t job (.mutateCall callId (.addParticipant p)) next →
    ∀ call u q, jobs.shared.lookup callId = some call → call.participants.lookup u = some q →
      q.sessionId = p.sessionId → u = p.userId

def AddedEmpty : ManagerAct → Prop
  | .addCall call => call.participants = .empty
  | _ => True

/-- Whatever its methods return, the handler adds only calls without participants, and ends in `Q` or fails. -/
def Adds {ε α : Type} (x : Handler ε α) (Q : α → Prop) : Prop :=
  x.run.Safe AddedEmpty (fun _ _ => True) fun r =>
    match r with
    | .ok a => Q a
    | .error _ => True

section Adds

variable {ε α β : Type} {x y : Handler ε α} {f : α → Handler ε β} {Q : α → Prop} {env : Env} {callId : Uuid}

theorem Adds.mono {Q' : α → Prop} (h : Adds x Q) (hQ : ∀ a, Q a → Q' a) : Adds x Q' := by
  refine Prog.Safe.mono h fun r hr => ?_
  cases r with
  | ok a => exact hQ a hr
  | error e => trivial

@[simp] theorem adds_bind {Q : β → Prop} : Adds (x >>= f) Q ↔ Adds x fun a => Adds (f a) Q := by
  refine (Prog.safe_run_bind x f).trans ⟨fun h => Prog.Safe.mono h fun r hr => ?_,
    fun h => Prog.Safe.mono h fun r hr => ?_⟩
  · cases r with
    | ok a => exact hr
    | error e => trivial
  · cases r with
    | ok a => exact hr
    | error e => trivial

@[simp] theorem adds_pure {a : α} : Adds (pure a : Handler ε α) Q ↔ Q a := Iff.rfl

@[simp] theorem adds_map {g : α → β} {Q : β → Prop} : Adds (g <$> x) Q ↔ Adds x fun a => Q (g a) := by
  rw [map_eq_pure_bind, adds_bind]
  rfl

@[simp] theorem adds_throw {e : ε} : Adds (throw e : Handler ε α) Q := trivial

@[simp] theorem adds_ofExcept {r : Except ε α} : Adds (ofExcept r) Q ↔ ∀ a, r = .ok a → Q a := by
  cases r with
  | ok a => exact ⟨fun h a' ha => (Except.ok.inj ha) ▸ h, fun h => h a rfl⟩
  | error e => exact ⟨fun _ a ha => (by cases ha), fun _ => trivial⟩

@[simp] theorem adds_ite {c : Prop} [Decidable c] :
    Adds (if c then x else y) Q ↔ (c → Adds x Q) ∧ (¬ c → Adds y Q) := by
  by_cases hc : c <;> simp [hc]

@[simp] theorem adds_getCall {Q : Option CallState → Prop} :
    Adds (getCall callId : Handler ε _) Q ↔ ∀ found, Q found :=
  ⟨fun h found => h.2 found trivial, fun h => ⟨trivial, fun found _ => h found⟩⟩

@[simp] theorem adds_getCallByChannel {channelId : Uuid} {Q : Option CallState → Prop} :
    Adds (getCallByChannel channelId : Handler ε _) Q ↔ ∀ found, Q found :=
  ⟨fun h found => h.2 found trivial, fun h => ⟨trivial, fun found _ => h found⟩⟩

@[simp] theorem adds_getAllCalls {Q : List CallState → Prop} :
    Adds (getAllCalls : Handler ε _) Q ↔ ∀ calls, Q calls :=
  ⟨fun h calls => h.2 calls trivial, fun h => ⟨trivial, fun calls _ => h calls⟩⟩

@[simp] theorem adds_addCall {channelId : Uuid} {threadId : Option Uuid} {Q : Unit → Prop} :
    Adds (addCall (newCall env callId channelId threadId) : Handler ε _) Q ↔ Q () :=
  ⟨fun h => h.2 () trivial, fun h => ⟨rfl, fun _ _ => h⟩⟩

@[simp] theorem adds_removeCall {Q : Unit → Prop} : Adds (removeCall callId : Handler ε _) Q ↔ Q () :=
  ⟨fun h => h.2 () trivial, fun h => ⟨trivial, fun _ _ => h⟩⟩

@[simp] theorem adds_mutateCall {mutation : Mutation} {Q : Unit → Prop} :
    Adds (mutateCall callId mutation : Handler ε _) Q ↔ Q () :=
  ⟨fun h => h.2 () trivial, fun h => ⟨trivial, fun _ _ => h⟩⟩

@[simp] theorem adds_scheduleTimeout {kind : Timeout} {Q : Unit → Prop} :
    Adds (scheduleTimeout kind callId : Handler ε _) Q ↔ Q () :=
  ⟨fun h => h.2 () trivial, fun h => ⟨trivial, fun _ _ => h⟩⟩

@[simp] theorem adds_ensureCallThreadId {k : ℕ} {call : CallState} {Q : Option Uuid → Prop} :
    Adds (ensureCallThreadId env k call : Handler ε _) Q ↔ Q (call.threadId.or (env.threadPost k)) := by
  unfold ensureCallThreadId
  cases call.threadId <;> cases env.threadPost k <;> simp

@[simp] theorem adds_buildCallStateResponse {k : ℕ} {call : CallState} {Q : Unit → Prop} :
    Adds (buildCallStateResponse env k call : Handler ε _) Q ↔ Q () := by
  simp [buildCallStateResponse]

@[simp] theorem adds_broadcastCallStateEvent {k : ℕ} {channelId : Uuid} {Q : Unit → Prop} :
    Adds (broadcastCallStateEvent env k channelId : Handler ε _) Q ↔ Q () := by
  simp +contextual [broadcastCallStateEvent, Option.forall]

@[simp] theorem adds_getParticipant {userId : Uuid} {Q : Option Participant → Prop} (h : ∀ found, Q found) :
    Adds (getParticipant callId userId : Handler ε _) Q := by
  simp [getParticipant, h]

@[simp] theorem adds_addParticipant {p : Participant} {Q : Unit → Prop} :
    Adds (addParticipant callId p : Handler ε _) Q ↔ Q () := adds_mutateCall

@[simp] theorem adds_handOver {call : CallState} {userId : Uuid} {Q : CallState → Prop} (h : ∀ call, Q call) :
    Adds (handOver call userId : Handler ε _) Q := by
  unfold handOver
  cases selectNextHost call.participants <;> simp [h]

@[simp] theorem adds_participantLeft {channelId userId : Uuid} {Q : Unit → Prop} (h : Q ()) :
    Adds (participantLeft env callId channelId userId : Handler ε _) Q := by
  simp [participantLeft, removeParticipant, reconcileAfterParticipantLeft, Option.forall, h]

@[simp] theorem adds_normalizeCallHostIfStale {call : CallState} {Q : CallState → Prop} (h : ∀ call, Q call) :
    Adds (normalizeCallHostIfStale env call : Handler ε _) Q := by
  unfold normalizeCallHostIfStale
  cases selectNextHost call.participants <;> simp [h]

theorem adds_forEach {g : α → Handler ε Unit} (h : ∀ a, Adds (g a) fun _ => True) (as : List α) :
    Adds (forEach g as) fun _ => True := by
  induction as with
  | nil => trivial
  | cons a as ih => exact adds_bind.2 ((h a).mono fun _ _ => ih)

theorem adds_startCall {channel : Uuid} : Adds (startCall env channel) fun _ => True := by
  simp [startCall, Option.forall]

theorem adds_joinCall {channel : Uuid} : Adds (joinCall env channel) fun _ => True := by
  simp [joinCall, channelOrCall, Option.forall]

theorem adds_leaveCall {channel : Uuid} : Adds (leaveCall env channel) fun _ => True := by
  simp [leaveCall, Option.forall]

theorem adds_endCallEndpoint {channel : Uuid} : Adds (endCallEndpoint env channel) fun _ => True := by
  simp [endCallEndpoint, channelOrCall, endCall, Option.forall]

theorem adds_getCallState {channel : Uuid} : Adds (getCallState env channel) fun _ => True := by
  simp [getCallState, channelOrCall, Option.forall]

theorem adds_asParticipant {channel : Uuid} {act : CallState → Participant → Handler AppError Unit}
    (h : ∀ call p, Adds (act call p) fun _ => True) : Adds (asParticipant env channel act) fun _ => True := by
  simp [asParticipant, activeCall, Option.forall, h]

theorem adds_toggleScreenShare {channel : Uuid} : Adds (toggleScreenShare env channel) fun _ => True := by
  refine adds_asParticipant fun call p => ?_
  simp [broadcastScreenShareEvent]

theorem adds_asHost {channel : Uuid} {forbidden : String} {act : CallState → Handler AppError Unit}
    (h : ∀ call, Adds (act call) fun _ => True) : Adds (asHost env channel forbidden act) fun _ => True := by
  simp [asHost, activeCall, Option.forall, h]

theorem adds_toParticipant {channel : Uuid} {sessionId forbidden : String}
    {act : CallState → Uuid → Handler AppError Unit}
    (h : ∀ call userId, Adds (act call userId) fun _ => True) :
    Adds (toParticipant env channel sessionId forbidden act) fun _ => True := by
  unfold toParticipant
  cases parseMmOrUuid env.parseStr sessionId with
  | none => trivial
  | some targetSessionId =>
    refine adds_asHost fun call => ?_
    simp [h]

theorem adds_hostScreenOff {channel : Uuid} {sessionId : String} :
    Adds (hostScreenOff env channel sessionId) fun _ => True := by
  refine adds_toParticipant fun call userId => ?_
  simp [broadcastScreenShareEvent]

theorem adds_hostRemoveUser {channel : Uuid} {sessionId : String} :
    Adds (hostRemoveUser env channel sessionId) fun _ => True := by
  refine adds_toParticipant fun call userId => ?_
  simp

theorem adds_hostMakeModerator {channel : Uuid} {newHostId : String} :
    Adds (hostMakeModerator env channel newHostId) fun _ => True := by
  unfold hostMakeModerator
  cases parseMmOrUuid env.parseStr newHostId with
  | none => trivial
  | some newHost =>
    refine adds_asHost fun call => ?_
    cases call.participants.lookup newHost <;> simp

theorem adds_ringUsers {channel : Uuid} : Adds (ringUsers env channel) fun _ => True := by
  simp [ringUsers, Option.forall]

theorem adds_dismissNotification {channel : Uuid} : Adds (dismissNotification env channel) fun _ => True := by
  simp [dismissNotification, Option.forall]

theorem adds_callCommandEnd {channel : Uuid} : Adds (callCommandEnd env channel) fun _ => True := by
  have hloop : ∀ callId (ps : List Participant), Adds (forEach (fun p => removeParticipant callId p.userId) ps :
      Handler AppError Unit) fun _ => True := by
    intro callId ps
    refine adds_forEach (fun p => ?_) ps
    simp [removeParticipant]
  simp [callCommandEnd, Option.forall, hloop]

theorem adds_callCommand {channel : Uuid} {args : String} :
    Adds (callCommand env channel args) fun _ => True := by
  have hstart : ∀ username, Adds (callCommandStart env channel username) fun _ => True := by
    intro username
    simp [callCommandStart, Option.forall]
  simp [callCommand, adds_callCommandEnd, hstart]

theorem adds_overWs {p : Handler String Unit} (h : Adds p fun _ => True) : Adds (overWs p) fun _ => True := by
  refine adds_bind.2 (Prog.safe_run_lift.2 (Prog.Safe.mono h fun r _ => ?_))
  trivial

theorem adds_handleWsJoinCall {connectionId : String} {data : Option Json} :
    Adds (handleWsJoinCall env connectionId data) fun _ => True := by
  cases data with
  | none => trivial
  | some data => simp [handleWsJoinCall, callToJoin, joinWithSession, callStarted, Option.forall]

@[simp] theorem adds_findCallForSession {sessionId : Uuid} {Q : Option CallState → Prop} (h : ∀ found, Q found) :
    Adds (findCallForSession env sessionId) Q := by
  simp [findCallForSession, h]

@[simp] theorem adds_resolveCallForWsConnection {sessionId : Uuid} {Q : CallState × Uuid → Prop} (h : ∀ found, Q found) :
    Adds (resolveCallForWsConnection env sessionId) Q := by
  refine adds_bind.2 (adds_findCallForSession fun found => ?_)
  cases found with
  | some call => exact h _
  | none =>
    refine adds_bind.2 (adds_getAllCalls.2 fun calls => ?_)
    dsimp only
    split
    · exact h _
    · trivial
    · refine adds_bind.2 (adds_bind.2 (adds_getAllCalls.2 fun calls => adds_ofExcept.2 fun memberCalls _ => ?_))
      split
      · exact h _
      · trivial
      · trivial

theorem adds_handleWsLeaveCall {connectionId : String} :
    Adds (handleWsLeaveCall env connectionId) fun _ => True := by
  refine adds_bind.2 (adds_ofExcept.2 fun sessionId _ => adds_bind.2 (Prog.safe_run_lift.2 ?_))
  refine Prog.Safe.mono (adds_resolveCallForWsConnection (Q := fun _ => True) fun _ => trivial) fun r _ => ?_
  cases r with
  | ok found => simp
  | error e => trivial

theorem adds_handleWsConnectionClosed {connectionId : String} :
    Adds (handleWsConnectionClosed env connectionId) fun _ => True := by
  unfold handleWsConnectionClosed
  cases env.parseStr connectionId with
  | none => trivial
  | some sessionId => simp [Option.forall]

theorem adds_handleWsMute {connectionId : String} {data : Option Json} {muted : Bool} :
    Adds (handleWsMute env connectionId data muted) fun _ => True := by
  refine adds_bind.2 (adds_ofExcept.2 fun sessionId _ => adds_bind.2 (adds_resolveCallForWsConnection fun found => ?_))
  refine adds_bind.2 (adds_getParticipant fun participant => ?_)
  cases participant <;> simp

theorem adds_handleWsRaiseHand {connectionId : String} {raised : Bool} :
    Adds (handleWsRaiseHand env connectionId raised) fun _ => True := by
  simp [handleWsRaiseHand]

/-! ### All of them -/

theorem adds_request (request : Request) : Adds (request.handler env) fun _ => True := by
  cases request with
  | startCall channel => exact adds_startCall
  | joinCall channel => exact adds_joinCall
  | leaveCall channel => exact adds_leaveCall
  | endCall channel => exact adds_endCallEndpoint
  | getCallState channel => exact adds_getCallState
  | toggleScreenShare channel => exact adds_toggleScreenShare
  | muteUser channel => exact adds_asParticipant fun _ _ => adds_mutateCall.2 trivial
  | unmuteUser channel => exact adds_asParticipant fun _ _ => adds_mutateCall.2 trivial
  | raiseHand channel => exact adds_asParticipant fun _ _ => adds_mutateCall.2 trivial
  | lowerHand channel => exact adds_asParticipant fun _ _ => adds_mutateCall.2 trivial
  | hostScreenOff channel sessionId => exact adds_hostScreenOff
  | hostMute channel sessionId => exact adds_toParticipant fun _ _ => adds_mutateCall.2 trivial
  | hostLowerHand channel sessionId => exact adds_toParticipant fun _ _ => adds_mutateCall.2 trivial
  | hostRemoveUser channel sessionId => exact adds_hostRemoveUser
  | hostMuteOthers channel => exact adds_asHost fun _ => adds_forEach (fun _ => adds_mutateCall.2 trivial) _
  | hostMakeModerator channel newHostId => exact adds_hostMakeModerator
  | ringUsers channel => exact adds_ringUsers
  | dismissNotification channel => exact adds_dismissNotification
  | callCommand channel args => exact adds_callCommand
  | wsJoin connectionId data => exact adds_overWs adds_handleWsJoinCall
  | wsLeave connectionId => exact adds_overWs adds_handleWsLeaveCall
  | wsMute connectionId data muted => exact adds_overWs adds_handleWsMute
  | wsRaiseHand connectionId raised => exact adds_overWs adds_handleWsRaiseHand
  | wsConnectionClosed connectionId => exact adds_overWs adds_handleWsConnectionClosed

theorem adds_job (job : Job) : Adds job.handler fun _ => True := by
  cases job with
  | request env request => exact adds_request request
  | timeout kind callId =>
    have halone : Adds (endCallIfAlone callId) fun _ => True :=
      by simp [endCallIfAlone, endCall, Option.forall]
    cases kind with
    | unanswered => exact halone
    | empty => exact halone

end Adds

/-! ### What a method does to session ids -/

variable {call : CallState} {m : CallManager}

/-- A change of the call keeps session ids apart unless it adds a participant with that of another. -/
theorem distinct_apply {mutation : Mutation} (h : SessionsDistinct call) : SessionsDistinct (mutation.apply call) ↔
    ∀ p, mutation = .addParticipant p → ∀ u q, call.participants.lookup u = some q → q.sessionId = p.sessionId →
      u = p.userId := by
  -- changes of flags
  have hupdate : ∀ {c : CallState} (userId : Uuid) (f : Participant → Participant) (hf : ∀ p, (f p).userId = p.userId),
      c.participants = call.participants.update userId f hf → (∀ p, (f p).sessionId = p.sessionId) →
        SessionsDistinct c := by
    intro c userId f hf hc hsession u v p q hp hq hpq
    have hold : ∀ {u p}, c.participants.lookup u = some p → ∃ p', call.participants.lookup u = some p' ∧
        p'.sessionId = p.sessionId := by
      intro u p hp
      rw [hc, Participants.lookup_update] at hp
      split at hp
      · next hu =>
        obtain ⟨p', hp', rfl⟩ := Option.map_eq_some_iff.1 hp
        exact ⟨p', hu ▸ hp', (hsession p').symm⟩
      · exact ⟨p, hp, rfl⟩
    obtain ⟨p', hp', hsession⟩ := hold hp
    obtain ⟨q', hq', hsession'⟩ := hold hq
    exact h u v p' q' hp' hq' (by rw [hsession, hsession', hpq])
  cases mutation with
  | addParticipant p =>
    have hlookup : ∀ u, ((Mutation.addParticipant p).apply call).participants.lookup u =
        if u = p.userId then some p else call.participants.lookup u := fun u => Participants.lookup_insert
    constructor
    · intro h' p' hp' u q hq hsession
      cases hp'
      by_contra hu
      have hu' := (hlookup u).trans (if_neg hu)
      rw [hq] at hu'
      exact hu (h' u p.userId q p hu' ((hlookup _).trans (if_pos rfl)) hsession)
    · intro hother u v q q' hq hq' hsession
      rw [hlookup] at hq hq'
      split at hq
      · next hu =>
        split at hq'
        · next hv => rw [hu, hv]
        · cases hq
          exact hu.trans (hother p rfl v q' hq' hsession.symm).symm
      · split at hq'
        · next hv =>
          cases hq'
          exact (hother p rfl u q hq hsession).trans hv.symm
        · exact h u v q q' hq hq' hsession
  | removeParticipant userId =>
    refine iff_of_true (fun u v p q hp hq => ?_) (by simp)
    simp only [Mutation.apply, Participants.lookup_remove] at hp hq
    split at hp
    · cases hp
    · split at hq
      · cases hq
      · exact h u v p q hp hq
  | setMuted userId muted => exact iff_of_true (hupdate userId (fun p => { p with muted }) (fun _ => rfl) rfl fun _ => rfl) (by simp)
  | setScreenSharing userId sharing =>
    exact iff_of_true (hupdate userId (fun p => { p with screenSharing := sharing }) (fun _ => rfl) rfl fun _ => rfl) (by simp)
  | setHandRaised userId raised =>
    exact iff_of_true (hupdate userId (fun p => { p with handRaised := raised }) (fun _ => rfl) rfl fun _ => rfl) (by simp)
  | setScreenSharer userId => exact iff_of_true h (by simp)
  | setHost hostId => exact iff_of_true h (by simp)
  | setThreadId threadId => exact iff_of_true h (by simp)
  | dismissUserNotification userId => exact iff_of_true h (by simp)

theorem distinct_run {act : ManagerAct} (h : ∀ id call, m.lookup id = some call → SessionsDistinct call)
    (hact : AddedEmpty act) : (∀ id call, (act.run m).2.lookup id = some call → SessionsDistinct call) ↔
      ∀ callId p, act = .mutateCall callId (.addParticipant p) → ∀ call u q, m.lookup callId = some call →
        call.participants.lookup u = some q → q.sessionId = p.sessionId → u = p.userId := by
  cases act with
  | mutateCall callId mutation =>
    have hlookup : ∀ id, ((ManagerAct.mutateCall callId mutation).run m).2.lookup id =
        if id = callId then (m.lookup callId).map mutation.apply else m.lookup id :=
          fun id => CallManager.lookup_mutate
    constructor
    · intro h' callId' p heq call u q hl hq hsession
      cases heq
      have hl' : ((ManagerAct.mutateCall callId (.addParticipant p)).run m).2.lookup callId =
          some ((Mutation.addParticipant p).apply call) := by rw [hlookup, if_pos rfl, hl]; rfl
      exact (distinct_apply (h callId call hl)).1 (h' callId _ hl') p rfl u q hq hsession
    · intro hother id call hl
      rw [hlookup] at hl
      split at hl
      · obtain ⟨old, hold, rfl⟩ := Option.map_eq_some_iff.1 hl
        refine (distinct_apply (h callId old hold)).2 fun p hp u q hq hsession => ?_
        subst hp
        exact hother callId p rfl old u q hold hq hsession
      · exact h id call hl
  | addCall call =>
    refine iff_of_true (fun id c hl => ?_) (by simp)
    have hupsert : (m.upsertCallLocal call).lookup id = some c := hl
    rw [CallManager.lookup_upsert] at hupsert
    split at hupsert
    · cases hupsert
      intro u v p q hp
      rw [show call.participants = .empty from hact, Participants.lookup_empty] at hp
      cases hp
    · exact h id c hupsert
  | removeCall callId =>
    refine iff_of_true (fun id c hl => ?_) (by simp)
    have hremove : (m.removeCallLocal callId).lookup id = some c := hl
    rw [CallManager.lookup_remove] at hremove
    split at hremove
    · cases hremove
    · exact h id c hremove
  | _ => exact iff_of_true h (by simp)

/-- In every run of jobs, interleaved between any two of their methods, the participants of every call have different
session ids if and only if nobody is added with that of another. -/
theorem distinct_iff_own (inputs : List (Pool.Input Job Unit)) (jobs : Jobs)
    (hrun : Run.exec step (Pool.start .empty) inputs = some jobs) :
    Run.AllStates step (fun jobs => ∀ id call, jobs.shared.lookup id = some call → SessionsDistinct call)
        (Pool.start .empty) inputs ↔ Run.AllSteps step Own (Pool.start .empty) inputs := by
  -- every job is on its way through a handler that adds only calls without participants
  let Safe : Jobs → Prop := Pool.Guarded (fun _ => False) (fun _ => True) AddedEmpty (fun _ _ => True) fun _ => True
  have hstart : Safe (Pool.start .empty) := ⟨trivial, fun _ h => h.elim, fun t task _ hl => by simp at hl⟩
  refine Run.allStates_iff_allSteps (I := Safe) (fun jobs input jobs' hsafe hs => ?_) ?_ hstart (fun id call hl => ?_) hrun
  · refine Pool.guarded_step (fun _ _ _ _ _ _ => ⟨trivial, trivial⟩) (fun t job _ => ?_) hsafe hs
    exact Prog.Safe.mono (adds_job job) fun _ _ => trivial
  · intro jobs input jobs' hsafe hdistinct hs
    rcases Pool.step_cases hs with ⟨t, job, rfl, -, rfl⟩ | ⟨t, o, job, act, next, rfl, hp, rfl⟩
    · exact iff_of_true hdistinct trivial
    · have hact : AddedEmpty act := (hsafe.tasks t _ id hp).1
      refine (distinct_run hdistinct hact).trans ⟨fun h job' callId p next' hp' => ?_,
        fun h callId p heq => ?_⟩
      · cases hp.symm.trans hp'
        exact h callId p rfl
      · subst heq
        exact h job callId p next hp
  · simp [Pool.start] at hl

def sessionText : String := "00000000-0000-0000-0000-000000000007"

def channelText : String := "00000000-0000-0000-0000-000000000005"

/-- User 1 joins the call of a channel over the websocket, and user 2 joins it with the connection id of user 1. -/
def joinAs : List (Pool.Input Job Unit) :=
  [.spawn 0 (.request (.plain 1 10 11) (.wsJoin sessionText (some (.obj [("channelID", .str channelText)]))))] ++
    List.replicate 5 (.step 0 ()) ++
  [.spawn 1 (.request (.plain 2 20 21) (.wsJoin "00000000-0000-0000-0000-000000000008"
      (some (.obj [("channelID", .str channelText), ("originalConnID", .str sessionText)]))))] ++
    List.replicate 3 (.step 1 ())

theorem joinAs_run : ∃ jobs, Run.exec step (Pool.start .empty) joinAs = some jobs ∧
    (Run.AllStates step (fun jobs => ∀ id call, jobs.shared.lookup id = some call → SessionsDistinct call)
      (Pool.start .empty) joinAs ↔ Run.AllSteps step Own (Pool.start .empty) joinAs) :=
  ⟨_, rfl, distinct_iff_own joinAs _ rfl⟩

theorem named_by_client : ¬ Run.AllStates step
    (fun jobs => ∀ id call, jobs.shared.lookup id = some call → SessionsDistinct call)
    (Pool.start .empty) joinAs := by
  intro h
  obtain ⟨jobs, call, p, q, hexec, hl, hp, hq, hsession⟩ : ∃ jobs call p q,
      Run.exec step (Pool.start .empty) joinAs = some jobs ∧ jobs.shared.lookup 10 = some call ∧
        call.participants.lookup 1 = some p ∧ call.participants.lookup 2 = some q ∧
          p.sessionId = q.sessionId :=
    ⟨_, _, _, _, rfl, rfl, rfl, rfl, rfl⟩
  have hsame := h.last hexec 10 call hl 1 2 p q hp hq hsession
  exact absurd hsame (by decide)

end SessionIds

end Rustchat.Calls
