import Mathlib.Logic.Relation
import Rustchat.Calls.Handlers

/-!
# A node on its own

Requests come one after another to a node that keeps its calls in memory, and its timeouts fire. `Change` lists what
a request does to the node and `CallStep` what that does to a call (`Change.lookup`). A condition on the methods that
a request calls (`Node.Meets`) holds of the methods that make its changes. `Does` is the rule for handlers: what a
handler that runs alone leaves.
-/

namespace Rustchat.Calls

/-- A task that sleeps before it looks at its call. -/
structure Timer where
  kind : Timeout
  callId : Uuid
  since : ℕ
deriving DecidableEq

/-- `UNANSWERED_CALL_TIMEOUT_SECS` and `EMPTY_CALL_TIMEOUT_SECS`, in milliseconds. -/
def Timeout.window : Timeout → ℕ
  | unanswered => 20000
  | empty => 10000

structure Node where
  manager : CallManager
  timers : List Timer
  clock : ℕ
  -- the calls that have been added
  issued : List Uuid

namespace Node

def init : Node := ⟨.empty, [], 0, []⟩

def timersAfter (s : Node) : ManagerAct → List Timer
  | .scheduleTimeout kind callId => ⟨kind, callId, s.clock⟩ :: s.timers
  | _ => s.timers

def issuedAfter (s : Node) : ManagerAct → List Uuid
  | .addCall call => call.callId :: s.issued
  | _ => s.issued

def perform (act : ManagerAct) (s : Node) : act.Res × Node :=
  let (r, manager) := act.run s.manager
  (r, { s with manager, timers := s.timersAfter act, issued := s.issuedAfter act })

def after (s : Node) (act : ManagerAct) : Node := (perform act s).2

inductive Input
  | request (env : Env) (request : Request)
  | fire (k : ℕ)
  | tick (ms : ℕ)

def runAlone (p : Handler AppError Reply) (s : Node) : Node := (p.run.eval perform s).2

/-- A new version 4 uuid is not that of an earlier call. -/
def step (s : Node) : Input → Option Node
  | .request env request => if env.newCallId ∈ s.issued then none else some (runAlone (request.handler env) s)
  | .fire k =>
    match s.timers[k]? with
    | some timer =>
      if timer.since + timer.kind.window ≤ s.clock then
        some (runAlone (timer.kind.handler timer.callId) { s with timers := s.timers.eraseIdx k })
      else none
    | none => none
  | .tick ms => some { s with clock := s.clock + ms }

end Node

abbrev ActCondition := ManagerAct → Node → Prop

/-- The request calls every method in a state that meets the condition. -/
def Node.Meets (P : ActCondition) (s : Node) : Node.Input → Prop
  | .request env request => (request.handler env).run.Along Node.perform P s
  | _ => True

/-- These changes do not concern who is in a call, who shares the screen and who is the host. -/
def Mutation.Cosmetic : Mutation → Prop
  | setMuted _ _ | setHandRaised _ _ | setThreadId _ | dismissUserNotification _ => True
  | _ => False

def shareScreen (s : Node) (callId userId : Uuid) : Node :=
  (s.after (.mutateCall callId (.setScreenSharing userId true))).after
    (.mutateCall callId (.setScreenSharer (some userId)))

def stopSharing (s : Node) (callId userId : Uuid) (sharer : Option Uuid) : Node :=
  let s := s.after (.mutateCall callId (.setScreenSharing userId false))
  if sharer = some userId then s.after (.mutateCall callId (.setScreenSharer none)) else s

def leave (s : Node) (callId userId : Uuid) : Node :=
  let s := s.after (.mutateCall callId (.removeParticipant userId))
  match s.manager.lookup callId with
  | none => s
  | some call =>
    if shouldSelectNewHost call userId then
      match selectNextHost call.participants with
      | none => s
      | some newHostId => s.after (.mutateCall callId (.setHost newHostId))
    else s

/-- One thing that a request does. `new` is the id of a call that it may start, and `P` holds of the methods that are
called. -/
inductive Change (P : ActCondition) (new : Uuid) (s : Node) : Node → Prop
  | cosmetic (callId : Uuid) (mutation : Mutation) (h : mutation.Cosmetic) :
    Change P new s (s.after (.mutateCall callId mutation))
  | create (call : CallState) (hnew : call.callId = new) (hempty : call.participants = .empty)
    (hsharer : call.screenSharer = none) : Change P new s (s.after (.addCall call))
  | join (callId : Uuid) (p : Participant) (hsharing : p.screenSharing = false)
    (hP : P (.mutateCall callId (.addParticipant p)) s) :
    Change P new s (s.after (.mutateCall callId (.addParticipant p)))
  | left (callId userId : Uuid) (hP : P (.mutateCall callId (.removeParticipant userId)) s) :
    Change P new s (leave s callId userId)
  | share (callId userId : Uuid) (call : CallState) (p : Participant) (hcall : s.manager.lookup callId = some call)
    (hp : call.participants.lookup userId = some p)
    (hP : P (.mutateCall callId (.setScreenSharing userId true)) s) :
    Change P new s (shareScreen s callId userId)
  | unshare (callId userId : Uuid) (call : CallState) (hcall : s.manager.lookup callId = some call) :
    Change P new s (stopSharing s callId userId call.screenSharer)
  | host (callId userId : Uuid) (call : CallState) (p : Participant) (hcall : s.manager.lookup callId = some call)
    (hp : call.participants.lookup userId = some p) :
    Change P new s (s.after (.mutateCall callId (.setHost userId)))
  | remove (callId : Uuid) : Change P new s (s.after (.removeCall callId))
  | schedule (kind : Timeout) (callId : Uuid) : Change P new s (s.after (.scheduleTimeout kind callId))

/-- What `leave` makes of the call. -/
def CallState.left (userId : Uuid) (call : CallState) : CallState :=
  let call := (Mutation.removeParticipant userId).apply call
  if shouldSelectNewHost call userId then
    match selectNextHost call.participants with
    | none => call
    | some hostId => { call with hostId }
  else call

/-- What a change does to one call. -/
inductive CallStep (P : ActCondition) (s : Node) (callId : Uuid) (call : CallState) : CallState → Prop
  | cosmetic (mutation : Mutation) (h : mutation.Cosmetic) : CallStep P s callId call (mutation.apply call)
  | join (p : Participant) (hsharing : p.screenSharing = false) (hP : P (.mutateCall callId (.addParticipant p)) s) :
    CallStep P s callId call ((Mutation.addParticipant p).apply call)
  | left (userId : Uuid) (hP : P (.mutateCall callId (.removeParticipant userId)) s) :
    CallStep P s callId call (call.left userId)
  | share (userId : Uuid) (p : Participant) (hp : call.participants.lookup userId = some p)
    (hP : P (.mutateCall callId (.setScreenSharing userId true)) s) :
    CallStep P s callId call ((Mutation.setScreenSharer (some userId)).apply
      ((Mutation.setScreenSharing userId true).apply call))
  | unshare (userId : Uuid) : CallStep P s callId call
      (if call.screenSharer = some userId then
        (Mutation.setScreenSharer none).apply ((Mutation.setScreenSharing userId false).apply call)
      else (Mutation.setScreenSharing userId false).apply call)
  | host (userId : Uuid) (p : Participant) (hp : call.participants.lookup userId = some p) :
    CallStep P s callId call ((Mutation.setHost userId).apply call)

abbrev Changes (P : ActCondition) (new : Uuid) : Node → Node → Prop := Relation.ReflTransGen (Change P new)

@[simp] theorem Node.manager_after (s : Node) (act : ManagerAct) :
    (s.after act).manager = (act.run s.manager).2 := rfl

section Lookup

variable {P : ActCondition} {new : Uuid} {s s' : Node} {callId userId id : Uuid} {call : CallState}

theorem lookup_after_mutate {mutation : Mutation} :
    (s.after (.mutateCall callId mutation)).manager.lookup id =
      if id = callId then (s.manager.lookup callId).map mutation.apply else s.manager.lookup id :=
  CallManager.lookup_mutate

theorem lookup_shareScreen : (shareScreen s callId userId).manager.lookup id =
    if id = callId then (s.manager.lookup callId).map fun call =>
      (Mutation.setScreenSharer (some userId)).apply ((Mutation.setScreenSharing userId true).apply call)
    else s.manager.lookup id := by
  rw [shareScreen, lookup_after_mutate, lookup_after_mutate, lookup_after_mutate, if_pos rfl, Option.map_map]
  split <;> rfl

theorem lookup_stopSharing {sharer : Option Uuid} : (stopSharing s callId userId sharer).manager.lookup id =
    if id = callId then (s.manager.lookup callId).map fun call =>
      if sharer = some userId then (Mutation.setScreenSharer none).apply ((Mutation.setScreenSharing userId false).apply call)
      else (Mutation.setScreenSharing userId false).apply call
    else s.manager.lookup id := by
  unfold stopSharing
  split
  · rw [lookup_after_mutate, lookup_after_mutate, lookup_after_mutate, if_pos rfl, Option.map_map]
    split <;> rfl
  · exact lookup_after_mutate

theorem lookup_leave : (leave s callId userId).manager.lookup id =
    if id = callId then (s.manager.lookup callId).map (CallState.left userId) else s.manager.lookup id := by
  let s₁ := s.after (.mutateCall callId (.removeParticipant userId))
  have hs₁ : ∀ id, s₁.manager.lookup id = if id = callId then
      (s.manager.lookup callId).map (Mutation.removeParticipant userId).apply else s.manager.lookup id :=
    fun id => lookup_after_mutate
  have hself := hs₁ callId
  rw [if_pos rfl] at hself
  unfold leave
  cases hl : s.manager.lookup callId with
  | none =>
    simp only [hl, Option.map_none] at hself
    simp only [s₁] at hself hs₁
    simp only [hself]
    rw [hs₁, hl, Option.map_none, Option.map_none]
  | some call =>
    simp only [hl, Option.map_some] at hself hs₁ ⊢
    simp only [s₁] at hself hs₁
    simp only [hself, CallState.left]
    split
    · cases selectNextHost ((Mutation.removeParticipant userId).apply call).participants with
      | none => exact hs₁ id
      | some hostId =>
        refine lookup_after_mutate.trans ?_
        rw [hself]
        split
        · rfl
        · next hid => exact (hs₁ id).trans (if_neg hid)
    · exact hs₁ id

theorem Change.lookup (h : Change P new s s') (hl : s'.manager.lookup id = some call) :
    s.manager.lookup id = some call ∨
      (id = new ∧ id ∈ s'.issued ∧ call.participants = .empty ∧ call.screenSharer = none) ∨
        ∃ old, s.manager.lookup id = some old ∧ CallStep P s id old call := by
  -- a change that maps the call `callId`
  have hmap : ∀ {callId : Uuid} {f : CallState → CallState},
      s'.manager.lookup id = (if id = callId then (s.manager.lookup callId).map f else s.manager.lookup id) →
      (∀ old, s.manager.lookup callId = some old → CallStep P s callId old (f old)) →
      s.manager.lookup id = some call ∨
        (id = new ∧ id ∈ s'.issued ∧ call.participants = .empty ∧ call.screenSharer = none) ∨
          ∃ old, s.manager.lookup id = some old ∧ CallStep P s id old call := by
    intro callId f heq hstep
    rw [hl] at heq
    split at heq
    · next hid =>
      obtain ⟨old, hold, rfl⟩ := Option.map_eq_some_iff.1 heq.symm
      subst hid
      exact .inr (.inr ⟨old, hold, hstep old hold⟩)
    · exact .inl heq.symm
  cases h with
  | cosmetic callId mutation h => exact hmap lookup_after_mutate fun _ _ => .cosmetic mutation h
  | create call' hnew hempty hsharer =>
    have hupsert : (s.manager.upsertCallLocal call').lookup id = some call := hl
    rw [CallManager.lookup_upsert] at hupsert
    split at hupsert
    · next hid =>
      cases hupsert
      have hissued : id ∈ call.callId :: s.issued := hid ▸ List.mem_cons_self
      exact .inr (.inl ⟨hid.trans hnew, hissued, hempty, hsharer⟩)
    · exact .inl hupsert
  | join callId p hsharing hP => exact hmap lookup_after_mutate fun _ _ => .join p hsharing hP
  | left callId userId hP => exact hmap lookup_leave fun _ _ => .left userId hP
  | share callId userId call' p hcall hp hP =>
    refine hmap lookup_shareScreen fun old hold => ?_
    obtain rfl := Option.some.inj (hcall.symm.trans hold)
    exact .share userId p hp hP
  | unshare callId userId call' hcall =>
    refine hmap lookup_stopSharing fun old hold => ?_
    obtain rfl := Option.some.inj (hcall.symm.trans hold)
    exact .unshare userId
  | host callId userId call' p hcall hp =>
    refine hmap lookup_after_mutate fun old hold => ?_
    obtain rfl := Option.some.inj (hcall.symm.trans hold)
    exact .host userId p hp
  | remove callId =>
    have hremove : (s.manager.removeCallLocal callId).lookup id = some call := hl
    rw [CallManager.lookup_remove] at hremove
    split at hremove
    · cases hremove
    · exact .inl hremove
  | schedule kind callId => exact .inl hl

end Lookup

/-! ### Handlers alone on a node -/

section Does

variable {P : ActCondition} {fail : Node → Prop} {s : Node} {ε α β : Type} {x : Handler ε α} {f : α → Handler ε β}
  {post post' : α → Node → Prop} {callId : Uuid}

/-- Alone on the node, the handler ends in `post` or fails in `fail`. -/
def Does (P : ActCondition) (fail : Node → Prop) (x : Handler ε α) (s : Node) (post : α → Node → Prop) :
    Prop :=
  x.run.wp Node.perform P (fun r s' =>
    match r with
    | .ok a => post a s'
    | .error _ => fail s') s

theorem Does.bind {post' : β → Node → Prop} (h : Does P fail x s post)
    (hf : ∀ a s', post a s' → Does P fail (f a) s' post') : Does P fail (x >>= f) s post' := by
  refine (Prog.wp_run_bind x f).2 (Prog.wp.mono h fun r s' hr => ?_)
  cases r with
  | ok a => exact hf a s' hr
  | error e => exact hr

theorem does_bind {post' : β → Node → Prop} (h : Does P fail x s fun a s' => Does P fail (f a) s' post') :
    Does P fail (x >>= f) s post' :=
  h.bind fun _ _ hf => hf

theorem Does.mono (h : Does P fail x s post) (hpost : ∀ a s', post a s' → post' a s') :
    Does P fail x s post' := by
  refine Prog.wp.mono h fun r s' hr => ?_
  cases r with
  | ok a => exact hpost a s' hr
  | error e => exact hr

theorem does_pure {a : α} (h : post a s) : Does P fail (pure a : Handler ε α) s post := h

theorem does_throw {e : ε} (h : fail s) : Does P fail (throw e : Handler ε α) s post := h

theorem does_ofExcept {r : Except ε α} (h₀ : fail s) (h : ∀ a, post a s) :
    Does P fail (ofExcept r) s post := by
  cases r with
  | ok a => exact h a
  | error e => exact h₀

theorem does_getCall {post : Option CallState → Node → Prop} (h : post (s.manager.lookup callId) s) :
    Does P fail (getCall callId : Handler ε _) s post := fun _ => h

theorem does_getCallByChannel {post : Option CallState → Node → Prop} {channelId : Uuid}
    (h : post (s.manager.lookupByChannel channelId) s) :
    Does P fail (getCallByChannel channelId : Handler ε _) s post := fun _ => h

theorem does_getParticipant {post : Option Participant → Node → Prop} {userId : Uuid}
    (h : post ((s.manager.lookup callId).bind (·.participants.lookup userId)) s) :
    Does P fail (getParticipant callId userId : Handler ε _) s post := fun _ => h

theorem does_mutateCall {post : Unit → Node → Prop} {mutation : Mutation}
    (h : P (.mutateCall callId mutation) s → post () (s.after (.mutateCall callId mutation))) :
    Does P fail (mutateCall callId mutation : Handler ε _) s post := h

theorem does_addCall {post : Unit → Node → Prop} {call : CallState} (h : post () (s.after (.addCall call))) :
    Does P fail (addCall call : Handler ε _) s post := fun _ => h

theorem does_removeCall {post : Unit → Node → Prop} (h : post () (s.after (.removeCall callId))) :
    Does P fail (removeCall callId : Handler ε _) s post := fun _ => h

theorem does_scheduleTimeout {post : Unit → Node → Prop} {kind : Timeout}
    (h : post () (s.after (.scheduleTimeout kind callId))) :
    Does P fail (scheduleTimeout kind callId : Handler ε _) s post := fun _ => h

end Does

/-! ### What handlers share -/

section Shared

variable {P : ActCondition} {new : Uuid} {fail : Node → Prop} {s₀ s s' : Node} {ε : Type} {env : Env}

def Named (s s' : Node) : Prop :=
  s' = s ∨ ∃ callId threadId, s' = s.after (.mutateCall callId (.setThreadId threadId))

theorem Named.changes (h : Named s s') : Changes P new s s' := by
  rcases h with rfl | ⟨callId, threadId, rfl⟩
  · exact .refl
  · exact .single (.cosmetic callId (.setThreadId threadId) trivial)

theorem Named.lookup (h : Named s s') {callId : Uuid} {call : CallState} (hl : s.manager.lookup callId = some call) :
    ∃ threadId, s'.manager.lookup callId = some { call with threadId } := by
  rcases h with rfl | ⟨callId', threadId, rfl⟩
  · exact ⟨call.threadId, hl⟩
  · show ∃ threadId, (s.manager.mutate callId' _).lookup callId = _
    rw [CallManager.lookup_mutate]
    split
    · next heq =>
      subst heq
      rw [hl]
      exact ⟨threadId, rfl⟩
    · exact ⟨call.threadId, hl⟩

theorem does_ensureCallThreadId {post : Option Uuid → Node → Prop} {k : ℕ} {call : CallState}
    (h : ∀ threadId s', Named s s' → post threadId s') :
    Does P fail (ensureCallThreadId env k call : Handler ε _) s post := by
  unfold ensureCallThreadId
  cases call.threadId with
  | some threadId => exact does_pure (h _ s (.inl rfl))
  | none =>
    cases env.threadPost k with
    | some threadId =>
      refine does_bind (does_mutateCall fun _ => does_pure (h _ _ (.inr ⟨call.callId, some threadId, rfl⟩)))
    | none => exact does_pure (h _ s (.inl rfl))

theorem does_buildCallStateResponse {post : Unit → Node → Prop} {k : ℕ} {call : CallState}
    (h : ∀ s', Named s s' → post () s') :
    Does P fail (buildCallStateResponse env k call : Handler ε _) s post :=
  does_bind (does_ensureCallThreadId fun _ s' hs' => does_bind (does_getCall (does_pure (h s' hs'))))

theorem does_broadcastCallStateEvent {post : Unit → Node → Prop} {k : ℕ} {channelId : Uuid}
    (h : ∀ s', Named s s' → post () s') :
    Does P fail (broadcastCallStateEvent env k channelId : Handler ε _) s post := by
  refine does_bind (does_getCallByChannel ?_)
  cases s.manager.lookupByChannel channelId with
  | none => exact does_pure (h s (.inl rfl))
  | some call => exact does_buildCallStateResponse h

theorem does_normalizeCallHostIfStale {post : CallState → Node → Prop} {call : CallState}
    (hcall : s.manager.lookup call.callId = some call)
    (h : ∀ c s', Changes P new s s' → s'.manager.lookup c.callId = some c → post c s') :
    Does P fail (normalizeCallHostIfStale env call : Handler ε _) s post := by
  unfold normalizeCallHostIfStale
  split
  · cases hnext : selectNextHost call.participants with
    | none => exact does_pure (h call s .refl hcall)
    | some newHostId =>
      obtain ⟨p, hp, -⟩ := selectNextHost_eq_some.1 hnext
      have hhost : Changes P new s (s.after (.mutateCall call.callId (.setHost newHostId))) :=
        .single (.host call.callId newHostId call p hcall hp)
      have hl : (s.after (.mutateCall call.callId (.setHost newHostId))).manager.lookup call.callId =
          some { call with hostId := newHostId } := by
        show (s.manager.mutate call.callId _).lookup call.callId = _
        simp [hcall, Mutation.apply]
      refine does_bind (does_mutateCall fun _ => does_bind (does_broadcastCallStateEvent fun s₁ hs₁ => ?_))
      obtain ⟨threadId, hl₁⟩ := hs₁.lookup hl
      refine does_bind (does_getCall (does_pure (h _ s₁ (hhost.trans hs₁.changes) ?_)))
      rw [hl₁]
      exact hl₁
  · exact does_pure (h call s .refl hcall)

theorem does_participantLeft {callId channelId userId : Uuid} (h₀ : Changes P new s₀ s) :
    Does P (Changes P new s₀) (participantLeft env callId channelId userId : Handler ε _) s fun _ s' => Changes P new s₀ s' := by
  refine does_bind (does_mutateCall fun hP => ?_)
  have hleave : Changes P new s₀ (leave s callId userId) := h₀.tail (.left callId userId hP)
  let s₁ := s.after (.mutateCall callId (.removeParticipant userId))
  -- whatever remains, the timeout is scheduled or not
  have hlast : ∀ (remaining : ℕ) s', Changes P new s₀ s' →
      Does P (Changes P new s₀) (if remaining ≤ 1 then scheduleTimeout .empty callId else pure () : Handler ε _) s'
        fun _ s' => Changes P new s₀ s' := by
    intro remaining s' hs'
    split
    · exact does_scheduleTimeout (hs'.tail (.schedule .empty callId))
    · exact does_pure hs'
  refine does_bind (does_bind (does_getCall ?_))
  show Does P (Changes P new s₀) (match s₁.manager.lookup callId with
    | none => pure 0
    | some call => _) s₁ _
  unfold leave at hleave
  cases hl : s₁.manager.lookup callId with
  | none =>
    simp only [s₁, hl] at hleave
    exact does_pure (hlast 0 s₁ hleave)
  | some call =>
    simp only [s₁, hl] at hleave
    refine does_bind ?_
    unfold handOver
    cases hselect : shouldSelectNewHost call userId with
    | false =>
      simp only [hselect] at hleave
      exact does_pure (does_bind (does_broadcastCallStateEvent fun s₂ hs₂ =>
        does_pure (hlast _ s₂ (hleave.trans hs₂.changes))))
    | true =>
      simp only [hselect] at hleave
      cases hnext : selectNextHost call.participants with
      | none =>
        simp only [hnext] at hleave
        exact does_pure (does_bind (does_broadcastCallStateEvent fun s₂ hs₂ =>
          does_pure (hlast _ s₂ (hleave.trans hs₂.changes))))
      | some newHostId =>
        simp only [hnext, if_true] at hleave
        rw [show call.callId = callId from CallManager.callId_of_lookup hl]
        refine does_bind (does_mutateCall fun _ => does_bind (does_getCall (does_pure ?_)))
        exact does_bind (does_broadcastCallStateEvent fun s₂ hs₂ =>
          does_pure (hlast _ s₂ (hleave.trans hs₂.changes)))

end Shared

end Rustchat.Calls
