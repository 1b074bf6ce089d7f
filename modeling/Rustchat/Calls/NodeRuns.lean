import Rustchat.Calls.Node

/-!
# What requests do to a node

Every request is a chain of changes (`makes_request`), so what changes keep of a call under a condition holds in every
run whose requests meet the condition (`Node.allStates_calls`).
-/

namespace Rustchat.Calls

section Handlers

variable {P : ActCondition} {new : Uuid} {s : Node} {env : Env} {channel : Uuid} {call : CallState}

abbrev Makes {ε α : Type} (P : ActCondition) (new : Uuid) (s₀ : Node) (x : Handler ε α) (s : Node) : Prop :=
  Does P (Changes P new s₀) x s fun _ s' => Changes P new s₀ s'

theorem makes_startCall : Makes P env.newCallId s (startCall env channel) s := by
  refine does_bind (does_ofExcept .refl fun _ => does_bind (does_ofExcept .refl fun _ => does_bind
    (does_getCallByChannel ?_)))
  cases s.manager.lookupByChannel channel with
  | some call => exact does_pure .refl
  | none =>
    have hcreate : Changes P env.newCallId s (s.after (.addCall (newCall env env.newCallId channel none))) :=
      .single (.create _ rfl rfl rfl)
    refine does_bind (does_addCall (does_bind (does_ensureCallThreadId fun _ s₁ hs₁ => does_bind (does_mutateCall
      fun hP => ?_))))
    have hjoin := (hcreate.trans hs₁.changes).tail (.join env.newCallId (newParticipant env env.newSessionId) rfl hP)
    refine does_bind (does_ofExcept hjoin fun _ => does_bind (does_broadcastCallStateEvent fun s₂ hs₂ => ?_))
    exact does_bind (does_scheduleTimeout (does_pure ((hjoin.trans hs₂.changes).tail (.schedule .unanswered env.newCallId))))

theorem does_channelOrCall {post : Option CallState → Node → Prop} (hnone : post none s)
    (h : ∀ call, s.manager.lookup call.callId = some call → post (some call) s) :
    Does P (Changes P new s) (channelOrCall channel) s post := by
  refine does_bind (does_getCallByChannel ?_)
  cases hl : s.manager.lookupByChannel channel with
  | some call => exact does_pure (h call (CallManager.lookup_of_lookupByChannel hl))
  | none =>
    refine does_getCall ?_
    cases hl : s.manager.lookup channel with
    | none => exact hnone
    | some call =>
      have hid : call.callId = channel := CallManager.callId_of_lookup hl
      exact h call (hid ▸ hl)

theorem does_activeCall {post : CallState → Node → Prop}
    (h : ∀ call, s.manager.lookup call.callId = some call → post call s) :
    Does P (Changes P new s) (activeCall channel) s post := by
  refine does_bind (does_getCallByChannel ?_)
  cases hl : s.manager.lookupByChannel channel with
  | some call => exact does_pure (h call (CallManager.lookup_of_lookupByChannel hl))
  | none => exact does_throw .refl

theorem makes_joinCall : Makes P new s (joinCall env channel) s := by
  refine does_bind (does_ofExcept .refl fun _ => does_bind (does_ofExcept .refl fun _ => does_bind
    (does_channelOrCall (does_throw .refl) fun call hcall => does_bind (does_getParticipant ?_))))
  cases (s.manager.lookup call.callId).bind (·.participants.lookup env.userId) with
  | some p => exact does_pure .refl
  | none =>
    refine does_bind (does_mutateCall fun hP => ?_)
    have hjoin : Changes P new s _ := .single (.join call.callId (newParticipant env env.newSessionId) rfl hP)
    exact does_bind (does_ofExcept hjoin fun _ => does_bind (does_broadcastCallStateEvent fun s₁ hs₁ =>
      does_pure (hjoin.trans hs₁.changes)))

theorem makes_leaveCall : Makes P new s (leaveCall env channel) s := by
  refine does_bind (does_getCallByChannel ?_)
  cases s.manager.lookupByChannel channel with
  | none => exact does_pure .refl
  | some call =>
    exact does_bind (does_getParticipant (does_bind ((does_participantLeft .refl).mono fun _ _ hs => does_pure hs)))

theorem makes_endCallEndpoint : Makes P new s (endCallEndpoint env channel) s := by
  refine does_bind (does_channelOrCall (does_pure .refl) fun call hcall => does_bind (does_ofExcept .refl fun _ =>
    does_bind (does_normalizeCallHostIfStale hcall fun c s₁ (hs₁ : Changes P new s s₁) _ => ?_)))
  split
  · exact does_bind (does_bind (does_getCall (does_removeCall (does_pure (hs₁.tail (.remove c.callId))))))
  · exact does_throw hs₁

theorem makes_getCallState : Makes P new s (getCallState env channel) s :=
  does_bind (does_ofExcept .refl fun _ => does_bind (does_channelOrCall (does_throw .refl) fun _ _ =>
    does_bind (does_buildCallStateResponse fun _ hs₁ => does_pure hs₁.changes)))

theorem makes_asParticipant {act : CallState → Participant → Handler AppError Unit}
    (h : ∀ call p, s.manager.lookup call.callId = some call → call.participants.lookup env.userId = some p →
      Makes P new s (act call p) s) : Makes P new s (asParticipant env channel act) s := by
  refine does_bind (does_activeCall fun call hcall => does_bind (does_getParticipant ?_))
  rw [hcall, Option.bind_some]
  cases hp : call.participants.lookup env.userId with
  | none => exact does_throw .refl
  | some p => exact does_bind ((h call p hcall hp).mono fun _ _ hs => does_pure hs)

theorem does_broadcastScreenShareEvent {post : Unit → Node → Prop} {s₀ : Node} (h : post () s) :
    Does P (Changes P new s₀) (broadcastScreenShareEvent channel : Handler AppError Unit) s post :=
  does_bind (does_getCallByChannel (does_pure h))

theorem makes_stopSharing {s₀ : Node} {userId : Uuid} (h₀ : Changes P new s₀ s)
    (hcall : s.manager.lookup call.callId = some call) :
    Makes P new s₀ (do
      mutateCall call.callId (.setScreenSharing userId false)
      if call.screenSharer = some userId then mutateCall call.callId (.setScreenSharer none)
      broadcastScreenShareEvent channel : Handler AppError Unit) s := by
  have hchange := h₀.tail (.unshare call.callId userId call hcall)
  unfold stopSharing at hchange
  refine does_bind (does_mutateCall fun _ => ?_)
  split
  · next hsharer =>
    simp only [hsharer, if_true] at hchange
    exact does_bind (does_mutateCall fun _ => does_broadcastScreenShareEvent hchange)
  · next hsharer =>
    simp only [hsharer, if_false] at hchange
    exact does_broadcastScreenShareEvent hchange

theorem makes_toggleScreenShare : Makes P new s (toggleScreenShare env channel) s := by
  refine makes_asParticipant fun call p hcall hp => ?_
  cases hsharing : p.screenSharing with
  | true =>
    have hoff : Makes P new s (do
        mutateCall call.callId (.setScreenSharing env.userId false)
        if call.screenSharer = some env.userId then mutateCall call.callId (.setScreenSharer none)
        broadcastScreenShareEvent channel : Handler AppError Unit) s := makes_stopSharing .refl hcall
    simpa [hsharing] using hoff
  | false =>
    have hon : Makes P new s (do
        mutateCall call.callId (.setScreenSharing env.userId true)
        mutateCall call.callId (.setScreenSharer (some env.userId))
        broadcastScreenShareEvent channel : Handler AppError Unit) s := by
      refine does_bind (does_mutateCall fun hP => does_bind (does_mutateCall fun _ => ?_))
      exact does_broadcastScreenShareEvent (.single (.share call.callId env.userId call p hcall hp hP))
    simpa [hsharing] using hon

theorem makes_cosmetic {s₀ : Node} {ε : Type} {callId : Uuid} {mutation : Mutation} (h₀ : Changes P new s₀ s)
    (h : mutation.Cosmetic) : Makes P new s₀ (mutateCall callId mutation : Handler ε Unit) s :=
  does_mutateCall fun _ => h₀.tail (.cosmetic callId mutation h)

theorem makes_asHost {forbidden : String} {act : CallState → Handler AppError Unit}
    (h : ∀ call s₁, Changes P new s s₁ → s₁.manager.lookup call.callId = some call →
      Does P (Changes P new s) (act call) s₁ fun _ s' => Changes P new s s') :
    Makes P new s (asHost env channel forbidden act) s := by
  refine does_bind (does_activeCall fun call hcall => does_bind (does_normalizeCallHostIfStale hcall fun c s₁
    (hs₁ : Changes P new s s₁) hc => ?_))
  split
  · exact does_bind ((h c s₁ hs₁ hc).mono fun _ _ hs => does_pure hs)
  · exact does_throw hs₁

theorem makes_toParticipant {forbidden sessionId : String} {act : CallState → Uuid → Handler AppError Unit}
    (h : ∀ call userId s₁, Changes P new s s₁ → s₁.manager.lookup call.callId = some call →
      Does P (Changes P new s) (act call userId) s₁ fun _ s' => Changes P new s s') :
    Makes P new s (toParticipant env channel sessionId forbidden act) s := by
  unfold toParticipant
  cases parseMmOrUuid env.parseStr sessionId with
  | none => exact does_throw .refl
  | some targetSessionId =>
    exact makes_asHost fun c s₁ hs₁ hc => does_bind (does_ofExcept hs₁ fun userId => h c userId s₁ hs₁ hc)

theorem makes_hostScreenOff {sessionId : String} : Makes P new s (hostScreenOff env channel sessionId) s :=
  makes_toParticipant fun _ _ _ hs₁ hc => makes_stopSharing hs₁ hc

theorem makes_hostRemoveUser {sessionId : String} :
    Makes P new s (hostRemoveUser env channel sessionId) s := by
  refine makes_toParticipant fun call userId s₁ hs₁ hc => ?_
  split
  · exact does_throw hs₁
  · exact does_participantLeft hs₁

theorem makes_forEach {s₀ : Node} {α ε : Type} {f : α → Handler ε Unit}
    (hf : ∀ a s₁, Changes P new s₀ s₁ → Makes P new s₀ (f a) s₁) (as : List α) (h₀ : Changes P new s₀ s) :
    Makes P new s₀ (forEach f as) s := by
  induction as generalizing s with
  | nil => exact does_pure h₀
  | cons a as ih => exact does_bind ((hf a s h₀).mono fun _ s₁ hs₁ => ih hs₁)

theorem makes_hostMuteOthers : Makes P new s (hostMuteOthers env channel) s :=
  makes_asHost fun _ _ hs₁ _ => makes_forEach (fun _ _ hs => makes_cosmetic hs (by trivial)) _ hs₁

theorem makes_hostMakeModerator {newHostId : String} :
    Makes P new s (hostMakeModerator env channel newHostId) s := by
  unfold hostMakeModerator
  cases parseMmOrUuid env.parseStr newHostId with
  | none => exact does_throw .refl
  | some newHost =>
    refine makes_asHost fun call s₁ hs₁ hc => ?_
    cases hp : call.participants.lookup newHost with
    | none => exact does_throw hs₁
    | some p =>
      have hhost := hs₁.tail (.host call.callId newHost call p hc hp)
      exact does_bind (does_mutateCall fun _ => does_broadcastCallStateEvent fun s₂ hs₂ => hhost.trans hs₂.changes)

theorem makes_ringUsers : Makes P new s (ringUsers env channel) s := by
  refine does_bind (does_ofExcept .refl fun _ => does_bind (does_getCallByChannel ?_))
  cases s.manager.lookupByChannel channel with
  | none => exact does_throw .refl
  | some call => exact does_bind (does_ensureCallThreadId fun _ _ hs₁ => does_pure hs₁.changes)

theorem makes_dismissNotification : Makes P new s (dismissNotification env channel) s := by
  have hlast : ∀ s₁, Changes P new s s₁ → Does P (Changes P new s) (do
      broadcastCallStateEvent env 0 channel
      pure .ok : Handler AppError Reply) s₁ fun _ s' => Changes P new s s' := fun s₁ hs₁ =>
    does_bind (does_broadcastCallStateEvent fun _ hs₂ => does_pure (hs₁.trans hs₂.changes))
  refine does_bind (does_ofExcept .refl fun _ => does_bind (does_getCallByChannel ?_))
  cases s.manager.lookupByChannel channel with
  | none => exact hlast s .refl
  | some call => exact does_bind ((makes_cosmetic .refl (by trivial)).mono fun _ s₁ hs₁ => hlast s₁ hs₁)

theorem after_mutate_remove (s : Node) (callId : Uuid) (mutation : Mutation) :
    (s.after (.mutateCall callId mutation)).after (.removeCall callId) = s.after (.removeCall callId) :=
  congrArg (fun manager : CallManager => { s with manager }) (CallManager.removeCallLocal_mutate s.manager callId mutation)

theorem does_callCommandEnd {post : Node → Prop} (hnone : post s) (h : ∀ callId, post (s.after (.removeCall callId))) :
    Does P post (callCommandEnd env channel) s fun _ s' => post s' := by
  have hloop : ∀ (callId : Uuid) (participants : List Participant) (s₁ : Node),
      s₁.after (.removeCall callId) = s.after (.removeCall callId) →
      Does P post (forEach (fun p => removeParticipant callId p.userId) participants : Handler AppError Unit) s₁
        fun _ s' => s'.after (.removeCall callId) = s.after (.removeCall callId) := by
    intro callId participants
    induction participants with
    | nil => exact fun s₁ hs₁ => does_pure hs₁
    | cons p ps ih =>
      intro s₁ hs₁
      exact does_bind (does_mutateCall fun _ => ih _ ((after_mutate_remove s₁ callId _).trans hs₁))
  refine does_bind (does_getCallByChannel ?_)
  cases s.manager.lookupByChannel channel with
  | none => exact does_pure hnone
  | some call =>
    refine does_bind (does_getCall (does_bind ((hloop call.callId _ s rfl).mono fun _ s' hs' => ?_)))
    refine does_bind (does_removeCall (does_pure ?_))
    rw [hs']
    exact h call.callId

theorem makes_callCommandStart {username : String} :
    Makes P env.newCallId s (callCommandStart env channel username) s := by
  refine does_bind (does_getCallByChannel ?_)
  cases s.manager.lookupByChannel channel with
  | some call =>
    refine does_bind (does_getParticipant ?_)
    cases (s.manager.lookup call.callId).bind (·.participants.lookup env.userId) with
    | some p => exact does_pure .refl
    | none => exact does_bind (does_mutateCall fun hP => does_pure (.single (.join _ _ rfl hP)))
  | none =>
    refine does_bind (does_addCall (does_bind (does_mutateCall fun hP => ?_)))
    have hcreate : Changes P env.newCallId s (s.after (.addCall (newCall env env.newCallId channel none))) :=
      .single (.create _ rfl rfl rfl)
    have hjoin := hcreate.tail (.join env.newCallId (newParticipant env env.newSessionId) rfl hP)
    exact does_bind (does_ofExcept hjoin fun _ => does_pure hjoin)

theorem does_callCommand {args : String} {post : Node → Prop} (hnone : post s)
    (hend : Does P post (callCommandEnd env channel) s fun _ s' => post s')
    (hstart : ¬ (args = "end" ∨ args = "stop") → ∀ username,
      Does P post (callCommandStart env channel username) s fun _ s' => post s') :
    Does P post (callCommand env channel args) s fun _ s' => post s' := by
  refine does_bind (does_ofExcept hnone fun ⟨db, enabled⟩ => ?_)
  dsimp only
  split
  · refine does_bind (does_ofExcept hnone fun username => ?_)
    split
    · exact hend
    · next hargs => exact hstart hargs username
  · exact does_pure hnone

theorem makes_callCommand {args : String} : Makes P env.newCallId s (callCommand env channel args) s :=
  does_callCommand .refl (does_callCommandEnd .refl fun callId => .single (.remove callId))
    fun _ _ => makes_callCommandStart

def ReadOnly {ε α : Type} (x : Handler ε α) : Prop :=
  ∀ P (Q : Except ε α → Node → Prop) s, (∀ r, Q r s) → x.run.wp Node.perform P Q s

theorem ReadOnly.bind {ε α β : Type} {x : Handler ε α} {f : α → Handler ε β} (h : ReadOnly x) (hf : ∀ a, ReadOnly (f a)) :
    ReadOnly (x >>= f) := by
  intro P Q s hQ
  refine (Prog.wp_run_bind x f).2 (h P _ s fun r => ?_)
  cases r with
  | ok a => exact hf a P Q s hQ
  | error e => exact hQ (.error e)

theorem readOnly_pure {ε α : Type} (a : α) : ReadOnly (pure a : Handler ε α) := fun _ _ _ hQ => hQ (.ok a)

theorem readOnly_throw {ε α : Type} (e : ε) : ReadOnly (throw e : Handler ε α) :=
  fun _ _ _ hQ => hQ (.error e)

theorem readOnly_getAllCalls {ε : Type} : ReadOnly (getAllCalls : Handler ε _) := fun _ _ _ hQ _ => hQ (.ok _)

theorem readOnly_ofExcept {ε α : Type} (r : Except ε α) : ReadOnly (ofExcept r) := fun _ _ _ hQ => hQ r

theorem ReadOnly.does {ε α : Type} {x : Handler ε α} {s₀ : Node} {post : α → Node → Prop} (h : ReadOnly x)
    (h₀ : Changes P new s₀ s) (hpost : ∀ a, post a s) : Does P (Changes P new s₀) x s post := by
  refine h P _ s fun r => ?_
  cases r with
  | ok a => exact hpost a
  | error e => exact h₀

theorem readOnly_findCallForSession (sessionId : Uuid) : ReadOnly (findCallForSession env sessionId) :=
  readOnly_getAllCalls.bind fun _ => readOnly_pure _

theorem readOnly_resolveCallForWsConnection (requestedSessionId : Uuid) :
    ReadOnly (resolveCallForWsConnection env requestedSessionId) := by
  refine (readOnly_findCallForSession _).bind fun found => ?_
  cases found with
  | some call => exact readOnly_pure _
  | none =>
    refine readOnly_getAllCalls.bind fun calls => ?_
    dsimp only
    split
    · exact readOnly_pure _
    · exact readOnly_throw _
    · have hmember : ReadOnly (findMemberCallsForUser env) :=
        readOnly_getAllCalls.bind fun _ => readOnly_ofExcept _
      refine hmember.bind fun calls => ?_
      split
      · exact readOnly_pure _
      · exact readOnly_throw _
      · exact readOnly_throw _

theorem makes_overWs {p : Handler String Unit} (h : Makes P new s p s) : Makes P new s (overWs p) s := by
  refine (Prog.wp_run_bind _ _).2 (Prog.wp_run_lift.2 (Prog.wp.mono h fun r s' hr => ?_))
  cases r with
  | ok a => exact hr
  | error e => exact hr

theorem does_callToJoin {data : Json} {post : CallState × Bool → Node → Prop}
    (h : ∀ r s₁, Changes P env.newCallId s s₁ → post r s₁) :
    Does P (Changes P env.newCallId s) (callToJoin env channel data) s post := by
  refine does_bind (does_getCallByChannel ?_)
  cases s.manager.lookupByChannel channel with
  | some call => exact does_pure (h _ s .refl)
  | none => exact does_bind (does_addCall (does_pure (h _ _ (.single (.create _ rfl rfl rfl)))))

theorem makes_joinWithSession {s₀ : Node} {callId connUuid : Uuid} (h₀ : Changes P new s₀ s) :
    Makes P new s₀ (joinWithSession env callId connUuid) s := by
  have hadd : Makes P new s₀ (addParticipant callId (newParticipant env connUuid) : Handler String Unit) s :=
    does_mutateCall fun hP => h₀.tail (.join callId _ rfl hP)
  refine does_bind (does_getParticipant ?_)
  cases (s.manager.lookup callId).bind (·.participants.lookup env.userId) with
  | none => exact hadd
  | some existing =>
    dsimp only
    split
    · exact does_pure h₀
    · exact hadd

theorem makes_callStarted {s₀ : Node} {callId : Uuid} {createdCall : Bool} (h₀ : Changes P new s₀ s) :
    Makes P new s₀ (callStarted callId createdCall) s := by
  cases createdCall with
  | true => exact does_scheduleTimeout (h₀.tail (.schedule .unanswered callId))
  | false => exact does_pure h₀

theorem makes_handleWsJoinCall {connectionId : String} {data : Option Json} :
    Makes P env.newCallId s (handleWsJoinCall env connectionId data) s := by
  cases data with
  | none => exact does_throw .refl
  | some data =>
    refine does_bind (does_ofExcept .refl fun connUuid => does_bind (does_ofExcept .refl fun channel =>
      does_bind (does_ofExcept .refl fun _ => ?_)))
    split
    · refine does_bind (does_callToJoin fun ⟨call, createdCall⟩ s₁ hs₁ => ?_)
      refine does_bind ((makes_joinWithSession hs₁).mono fun _ s₂ hs₂ => does_bind (does_ofExcept hs₂ fun _ => ?_))
      refine does_bind (does_ensureCallThreadId fun _ s₃ hs₃ => does_bind ?_)
      refine (makes_callStarted (hs₂.trans hs₃.changes)).mono fun _ s₄ hs₄ => ?_
      exact does_broadcastCallStateEvent fun s₅ hs₅ => hs₄.trans hs₅.changes
    · exact does_throw .refl

theorem makes_handleWsLeaveCall {connectionId : String} :
    Makes P new s (handleWsLeaveCall env connectionId) s := by
  refine does_bind (does_ofExcept .refl fun requestedSessionId => ?_)
  refine (Prog.wp_run_bind _ _).2 (Prog.wp_run_lift.2 (readOnly_resolveCallForWsConnection requestedSessionId P _ s
    fun r => ?_))
  cases r with
  | ok found => exact does_participantLeft .refl
  | error e => exact does_pure .refl

theorem makes_handleWsConnectionClosed {connectionId : String} :
    Makes P new s (handleWsConnectionClosed env connectionId) s := by
  unfold handleWsConnectionClosed
  cases env.parseStr connectionId with
  | none => exact does_pure .refl
  | some sessionId =>
    refine does_bind ((readOnly_findCallForSession sessionId).does .refl fun found => ?_)
    cases found with
    | none => exact does_pure .refl
    | some call => exact does_participantLeft .refl

theorem makes_handleWsMute {connectionId : String} {data : Option Json} {muted : Bool} :
    Makes P new s (handleWsMute env connectionId data muted) s := by
  refine does_bind (does_ofExcept .refl fun requestedSessionId => does_bind
    ((readOnly_resolveCallForWsConnection requestedSessionId).does .refl fun ⟨call, sessionId⟩ => ?_))
  refine does_bind (does_getParticipant ?_)
  cases (s.manager.lookup call.callId).bind (·.participants.lookup env.userId) with
  | some p => exact makes_cosmetic .refl (by trivial)
  | none =>
    exact does_bind (does_mutateCall fun hP => makes_cosmetic (.single (.join _ (newParticipant env sessionId) rfl hP))
      (by trivial))

theorem makes_handleWsRaiseHand {connectionId : String} {raised : Bool} :
    Makes P new s (handleWsRaiseHand env connectionId raised) s :=
  does_bind (does_ofExcept .refl fun requestedSessionId => does_bind
    ((readOnly_resolveCallForWsConnection requestedSessionId).does .refl fun _ => makes_cosmetic .refl (by trivial)))

/-! ### All of them -/

theorem makes_request (request : Request) : Makes P env.newCallId s (request.handler env) s := by
  cases request with
  | startCall channel => exact makes_startCall
  | joinCall channel => exact makes_joinCall
  | leaveCall channel => exact makes_leaveCall
  | endCall channel => exact makes_endCallEndpoint
  | getCallState channel => exact makes_getCallState
  | toggleScreenShare channel => exact makes_toggleScreenShare
  | muteUser channel => exact makes_asParticipant fun _ _ _ _ => makes_cosmetic .refl (by trivial)
  | unmuteUser channel => exact makes_asParticipant fun _ _ _ _ => makes_cosmetic .refl (by trivial)
  | raiseHand channel => exact makes_asParticipant fun _ _ _ _ => makes_cosmetic .refl (by trivial)
  | lowerHand channel => exact makes_asParticipant fun _ _ _ _ => makes_cosmetic .refl (by trivial)
  | hostScreenOff channel sessionId => exact makes_hostScreenOff
  | hostMute channel sessionId => exact makes_toParticipant fun _ _ _ hs₁ _ => makes_cosmetic hs₁ (by trivial)
  | hostLowerHand channel sessionId => exact makes_toParticipant fun _ _ _ hs₁ _ => makes_cosmetic hs₁ (by trivial)
  | hostRemoveUser channel sessionId => exact makes_hostRemoveUser
  | hostMuteOthers channel => exact makes_hostMuteOthers
  | hostMakeModerator channel newHostId => exact makes_hostMakeModerator
  | ringUsers channel => exact makes_ringUsers
  | dismissNotification channel => exact makes_dismissNotification
  | callCommand channel args => exact makes_callCommand
  | wsJoin connectionId data => exact makes_overWs makes_handleWsJoinCall
  | wsLeave connectionId => exact makes_overWs makes_handleWsLeaveCall
  | wsMute connectionId data muted => exact makes_overWs makes_handleWsMute
  | wsRaiseHand connectionId raised => exact makes_overWs makes_handleWsRaiseHand
  | wsConnectionClosed connectionId => exact makes_overWs makes_handleWsConnectionClosed

end Handlers

/-! ### Runs -/

namespace Node

variable {P : ActCondition} {s s' : Node}

theorem does_runAlone {R : Node → Prop} {p : Handler AppError Reply} (h : Does P R p s fun _ s' => R s')
    (hP : p.run.Along perform P s) : R (runAlone p s) := by
  have hend := Prog.wp.eval h hP
  rw [runAlone]
  split at hend
  · exact hend
  · exact hend

theorem runAlone_timeout (kind : Timeout) (callId : Uuid) (s : Node) :
    runAlone (kind.handler callId) s =
      match s.manager.lookup callId with
      | none => s
      | some call => if 1 < call.participants.len then s else s.after (.removeCall callId) := by
  have hrun : runAlone (endCallIfAlone callId) s =
      match s.manager.lookup callId with
      | none => s
      | some call => if 1 < call.participants.len then s else s.after (.removeCall callId) := by
    have hget : (getCall callId : Handler AppError _).run.eval perform s = (.ok (s.manager.lookup callId), s) := rfl
    rw [endCallIfAlone, runAlone, Prog.eval_run_bind, hget]
    cases hl : s.manager.lookup callId with
    | none => rfl
    | some call =>
      have hid : call.callId = callId := CallManager.callId_of_lookup hl
      dsimp only
      split
      · rfl
      · rw [hid]
        rfl
  cases kind with
  | unanswered => exact hrun
  | empty => exact hrun

theorem step_fire {k : ℕ} (hs : s.step (.fire k) = some s') : ∃ timer, s.timers[k]? = some timer ∧
    timer.since + timer.kind.window ≤ s.clock ∧
      ((∀ call, s.manager.lookup timer.callId = some call → 1 < call.participants.len) ∧
          s' = { s with timers := s.timers.eraseIdx k } ∨
        (∃ call, s.manager.lookup timer.callId = some call ∧ call.participants.len ≤ 1) ∧
          s' = ({ s with timers := s.timers.eraseIdx k } : Node).after (.removeCall timer.callId)) := by
  rw [step] at hs
  split at hs
  · next timer hk =>
    split at hs
    · next hdue =>
      cases hs
      refine ⟨timer, hk, hdue, ?_⟩
      rw [runAlone_timeout]
      dsimp only
      split
      · next hnone =>
        refine .inl ⟨fun call hl => ?_, rfl⟩
        rw [hnone] at hl
        cases hl
      · next call hl =>
        split
        · next hlen =>
          refine .inl ⟨fun call' hl' => ?_, rfl⟩
          rw [hl] at hl'
          cases hl'
          exact hlen
        · next hlen => exact .inr ⟨⟨call, hl, not_lt.1 hlen⟩, rfl⟩
    · cases hs
  · cases hs

/-- What holds of new calls and is kept under a condition by what changes do to a call holds of every call in every
run whose requests meet the condition. -/
theorem allStates_calls {R : CallState → Prop}
    (hnew : ∀ call : CallState, call.participants = .empty → call.screenSharer = none → R call)
    (hstep : ∀ s id old call, s.manager.lookup id = some old → R old → CallStep P s id old call → R call)
    {inputs : List Input} (hP : Run.AllSteps step (Meets P) init inputs) :
    Run.AllStates step (fun s => ∀ id call, s.manager.lookup id = some call → R call) init inputs := by
  have hchain : ∀ new s s', (∀ id call, s.manager.lookup id = some call → R call) → Changes P new s s' →
      ∀ id call, s'.manager.lookup id = some call → R call := by
    intro new s s' hR hchanges
    induction hchanges with
    | refl => exact hR
    | tail _ hchange ih =>
      intro id call hl
      rcases hchange.lookup hl with hl | ⟨-, -, hempty, hsharer⟩ | ⟨old, hold, hcall⟩
      · exact ih id call hl
      · exact hnew call hempty hsharer
      · exact hstep _ id old call hold (ih id old hold) hcall
  have hinit : ∀ id call, init.manager.lookup id = some call → R call := by
    intro id call hl
    simp [init] at hl
  refine Run.allStates_of_allSteps (fun s input s' hR hmeets hs => ?_) hinit hP
  cases input with
  | request env request =>
    rw [step] at hs
    split at hs
    · cases hs
    · cases hs
      exact hchain _ _ _ hR (does_runAlone (makes_request request) hmeets)
  | fire k =>
    obtain ⟨timer, -, -, ⟨-, rfl⟩ | ⟨-, rfl⟩⟩ := step_fire hs
    · exact hR
    · exact hchain 0 { s with timers := s.timers.eraseIdx k } _ hR (.single (.remove timer.callId))
  | tick ms =>
    cases hs
    exact hR

end Node

end Rustchat.Calls
