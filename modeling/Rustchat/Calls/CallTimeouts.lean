import Rustchat.Calls.NodeRuns

/-!
# Timeouts of calls

A timeout ends its call if the call has at most one participant when it fires, whatever it had in between. So it ends
a call too early when the call filled up and emptied again after the timer was started. It does not when the last
participant but one leaves only while no earlier timer of the call runs (`CallTimeouts.fair_of_unhurried`,
`CallTimeouts.rejoined_ended`).
-/

namespace Rustchat.Calls

namespace Node

/-- The `k`th timer is this one, and its timeout ends the call. -/
def Ends (s : Node) (k : ℕ) (timer : Timer) : Prop :=
  s.timers[k]? = some timer ∧ (s.manager.lookup timer.callId).isSome = true ∧
    ∃ s', s.step (.fire k) = some s' ∧ s'.manager.lookup timer.callId = none

theorem ends_of_alone {s : Node} {k : ℕ} {timer : Timer} {call : CallState} (hk : s.timers[k]? = some timer)
    (hdue : timer.since + timer.kind.window ≤ s.clock) (hl : s.manager.lookup timer.callId = some call)
    (hlen : call.participants.len ≤ 1) : s.Ends k timer := by
  refine ⟨hk, by rw [hl]; rfl, ({ s with timers := s.timers.eraseIdx k } : Node).after (.removeCall timer.callId), ?_, ?_⟩
  · rw [step, hk]
    simp only [hdue, if_true, runAlone_timeout, hl, not_lt.2 hlen, if_false]
  · show (s.manager.removeCallLocal timer.callId).lookup timer.callId = none
    simp

end Node

namespace CallTimeouts

/-- When a timeout ends a call, the call had at most one participant in every state of the window before. -/
def FairEndings (inputs : List Node.Input) : Prop :=
  ∀ pre mid k suf u s timer call, inputs = pre ++ (mid ++ .fire k :: suf) → Run.exec Node.step .init pre = some u →
    Run.exec Node.step u mid = some s → s.Ends k timer → s.clock < u.clock + timer.kind.window →
    u.manager.lookup timer.callId = some call → call.participants.len ≤ 1

/-- Where a participant leaves all but one alone, no earlier timer of the call runs. -/
def NoEarlierTimer : ActCondition
  | .mutateCall callId (.removeParticipant userId), s =>
    ∀ call, s.manager.lookup callId = some call → 1 < call.participants.len →
      (call.participants.remove userId).len ≤ 1 → ∀ timer ∈ s.timers, timer.callId = callId → timer.since = s.clock
  | _, _ => True

/-- `/call end` takes the participants out of a call that it ends. -/
def EndsTheCall : Node.Input → Prop
  | .request _ (.callCommand _ args) => args = "end" ∨ args = "stop"
  | _ => False

def Unhurried (s : Node) (input : Node.Input) : Prop := EndsTheCall input ∨ s.Meets NoEarlierTimer input

variable {P : ActCondition} {new : Uuid} {s s' s'' : Node} {timer : Timer}

/-- The clock stands still, new timers start now, and ids stay in use. -/
structure Later (s s' : Node) : Prop where
  clock : s'.clock = s.clock
  timers : ∀ timer ∈ s'.timers, timer ∈ s.timers ∨ timer.since = s.clock
  issued : ∀ id ∈ s.issued, id ∈ s'.issued

theorem Later.trans (h : Later s s') (h' : Later s' s'') : Later s s'' where
  clock := h'.clock.trans h.clock
  timers timer hmem := by
    rcases h'.timers timer hmem with hmem | hsince
    · exact h.timers timer hmem
    · exact .inr (hsince.trans h.clock)
  issued id hid := h'.issued id (h.issued id hid)

theorem later_after (s : Node) (act : ManagerAct) : Later s (s.after act) where
  clock := rfl
  timers timer hmem := by
    cases act with
    | scheduleTimeout kind callId =>
      rcases List.mem_cons.1 hmem with rfl | hmem
      · exact .inr rfl
      · exact .inl hmem
    | _ => exact .inl hmem
  issued id hid := by
    cases act with
    | addCall call => exact List.mem_cons_of_mem _ hid
    | _ => exact hid

theorem later_change (h : Change P new s s') : Later s s' := by
  cases h with
  | left callId userId hP =>
    have hremove := later_after s (.mutateCall callId (.removeParticipant userId))
    unfold leave
    dsimp only
    split
    · exact hremove
    · split
      · split
        · exact hremove
        · exact hremove.trans (later_after _ _)
      · exact hremove
  | share callId userId call p hcall hp hP => exact (later_after _ _).trans (later_after _ _)
  | unshare callId userId call hcall =>
    unfold stopSharing
    dsimp only
    split
    · exact (later_after _ _).trans (later_after _ _)
    · exact later_after _ _
  | _ => exact later_after s _

/-- Stored calls have been added. -/
def Issued (s : Node) : Prop := ∀ id call, s.manager.lookup id = some call → id ∈ s.issued

theorem issued_change (hs : Issued s) (h : Change P new s s') : Issued s' := by
  intro id call hl
  have hlater := later_change h
  rcases h.lookup hl with hl | ⟨-, hissued, -, -⟩ | ⟨old, hold, -⟩
  · exact hlater.issued id (hs id call hl)
  · exact hissued
  · exact hlater.issued id (hs id old hold)

/-! ### A timer of a full call -/

/-- The timer started earlier, and as long as it runs its call has more than one participant. -/
structure Harmless (timer : Timer) (s : Node) : Prop where
  earlier : timer.since < s.clock
  issued : timer.callId ∈ s.issued
  crowded : timer ∈ s.timers → ∀ call, s.manager.lookup timer.callId = some call → 1 < call.participants.len

theorem len_left {call : CallState} {u : Uuid} : (call.left u).participants = call.participants.remove u := by
  unfold CallState.left
  dsimp only
  split
  · split
    · rfl
    · rfl
  · rfl

theorem crowded_step {callId : Uuid} {call c : CallState} (hl : s.manager.lookup callId = some call)
    (h : 1 < call.participants.len)
    (hpending : ∃ timer ∈ s.timers, timer.callId = callId ∧ timer.since < s.clock)
    (hstep : CallStep NoEarlierTimer s callId call c) : 1 < c.participants.len := by
  cases hstep with
  | cosmetic mutation hcosmetic =>
    cases mutation with
    | setMuted userId muted => simpa [Mutation.apply, Participants.len_update] using h
    | setHandRaised userId raised => simpa [Mutation.apply, Participants.len_update] using h
    | setThreadId threadId => exact h
    | dismissUserNotification userId => exact h
    | _ => exact hcosmetic.elim
  | join p hsharing _ => exact h.trans_le Participants.len_le_len_insert
  | left userId hnone =>
    obtain ⟨timer, hmem, hid, hsince⟩ := hpending
    rw [len_left]
    by_contra hle
    have hnow : timer.since = s.clock := hnone call hl h (not_lt.1 hle) timer hmem hid
    omega
  | share userId p hp _ => simpa [Mutation.apply, Participants.len_update] using h
  | unshare userId =>
    split
    · simpa [Mutation.apply, Participants.len_update] using h
    · simpa [Mutation.apply, Participants.len_update] using h
  | host userId p hp => exact h

theorem harmless_change (hnew : new ≠ timer.callId) (h : Harmless timer s) (hchange : Change NoEarlierTimer new s s') :
    Harmless timer s' := by
  have hlater := later_change hchange
  refine ⟨hlater.clock ▸ h.earlier, hlater.issued _ h.issued, fun hmem call hl => ?_⟩
  have hearlier := h.earlier
  have hmem' : timer ∈ s.timers := (hlater.timers timer hmem).resolve_right (by omega)
  rcases hchange.lookup hl with hl | ⟨hid, -, -, -⟩ | ⟨old, hold, hstep⟩
  · exact h.crowded hmem' call hl
  · exact absurd hid.symm hnew
  · exact crowded_step hold (h.crowded hmem' old hold) ⟨timer, hmem', rfl, h.earlier⟩ hstep

theorem harmless_remove (h : Harmless timer s) {callId : Uuid} :
    Harmless timer (s.after (.removeCall callId)) := by
  refine ⟨h.earlier, h.issued, fun hmem call hl => ?_⟩
  have hremove : (s.manager.removeCallLocal callId).lookup timer.callId = some call := hl
  rw [CallManager.lookup_remove] at hremove
  split at hremove
  · cases hremove
  · exact h.crowded hmem call hremove

theorem issued_changes (hs : Issued s) (h : Changes P new s s') : Issued s' := by
  induction h with
  | refl => exact hs
  | tail _ hchange ih => exact issued_change ih hchange

theorem harmless_changes (hnew : new ≠ timer.callId) (h : Harmless timer s) (hchanges : Changes NoEarlierTimer new s s') :
    Harmless timer s' := by
  induction hchanges with
  | refl => exact h
  | tail _ hchange ih => exact harmless_change hnew ih hchange

/-! ### Steps -/

theorem runAlone_endsTheCall {env : Env} {request : Request} (h : EndsTheCall (.request env request)) :
    Node.runAlone (request.handler env) s = s ∨
      ∃ callId, Node.runAlone (request.handler env) s = s.after (.removeCall callId) := by
  cases request with
  | callCommand channel args =>
    let R : Node → Prop := fun s' => s' = s ∨ ∃ callId, s' = s.after (.removeCall callId)
    have hdoes : Does (fun _ _ => True) R (callCommand env channel args) s fun _ s' => R s' :=
      does_callCommand (.inl rfl) (does_callCommandEnd (.inl rfl) fun callId => .inr ⟨callId, rfl⟩)
        fun hargs => absurd h hargs
    exact Node.does_runAlone hdoes (Prog.along_of_forall (fun _ _ => trivial) _ s)
  | _ => exact h.elim

theorem issued_step {input : Node.Input} (hs : Issued s) (h : s.step input = some s') : Issued s' := by
  cases input with
  | request env request =>
    rw [Node.step] at h
    split at h
    · cases h
    · cases h
      exact issued_changes hs (Node.does_runAlone (makes_request request) (Prog.along_of_forall (fun _ _ => trivial) _ s))
  | fire k =>
    obtain ⟨timer, -, -, ⟨-, rfl⟩ | ⟨-, rfl⟩⟩ := Node.step_fire h
    · exact hs
    · have hremove : Change (fun _ _ => True) 0 { s with timers := s.timers.eraseIdx k } _ :=
        .remove timer.callId
      exact issued_change (s := { s with timers := s.timers.eraseIdx k }) hs hremove
  | tick ms =>
    cases h
    exact hs

theorem harmless_step {input : Node.Input} (hmeets : Unhurried s input) (h : Harmless timer s)
    (hs : s.step input = some s') : Harmless timer s' := by
  cases input with
  | request env request =>
    rw [Node.step] at hs
    split at hs
    · cases hs
    · next hnew =>
      cases hs
      have hne : env.newCallId ≠ timer.callId := fun heq => hnew (heq ▸ h.issued)
      rcases hmeets with hends | hmeets
      · rcases runAlone_endsTheCall hends with hsame | ⟨callId, hsame⟩
        · rw [hsame]
          exact h
        · rw [hsame]
          exact harmless_remove h
      · exact harmless_changes hne h (Node.does_runAlone (makes_request request) hmeets)
  | fire k =>
    have hfired : Harmless timer { s with timers := s.timers.eraseIdx k } :=
      ⟨h.earlier, h.issued, fun hmem => h.crowded (List.mem_of_mem_eraseIdx hmem)⟩
    obtain ⟨fired, -, -, ⟨-, rfl⟩ | ⟨-, rfl⟩⟩ := Node.step_fire hs
    · exact hfired
    · exact harmless_remove hfired
  | tick ms =>
    cases hs
    exact ⟨h.earlier.trans_le (Nat.le_add_right _ _), h.issued, h.crowded⟩

theorem Harmless.not_ends {k : ℕ} (h : Harmless timer s) : ¬ s.Ends k timer := by
  rintro ⟨hk, hsome, s', hs, hnone⟩
  obtain ⟨fired, hfired, -, ⟨-, rfl⟩ | ⟨⟨call, hl, hle⟩, -⟩⟩ := Node.step_fire hs
  · rw [hnone] at hsome
    cases hsome
  · obtain rfl := Option.some.inj (hk.symm.trans hfired)
    have hlt := h.crowded (List.mem_of_getElem? hk) call hl
    omega

/-- In a run whose requests meet the condition every timeout that ends a call ends it fairly. -/
theorem fair_of_unhurried (inputs : List Node.Input) (h : Run.AllSteps Node.step Unhurried .init inputs) :
    FairEndings inputs := by
  intro pre mid k suf u s timer call hinputs hpre hmid hends hwindow hl
  by_contra hlen
  have hissued : Issued u := Run.invariant_last (fun _ _ _ hs h => issued_step hs h) (fun id call hl => by
    simp [Node.init] at hl) hpre
  have hearlier : timer.since < u.clock := by
    obtain ⟨hk, -, s', hs, -⟩ := hends
    obtain ⟨fired, hfired, hdue, -⟩ := Node.step_fire hs
    obtain rfl := Option.some.inj (hk.symm.trans hfired)
    omega
  have hstart : Harmless timer u := by
    refine ⟨hearlier, hissued _ _ hl, fun _ call' hl' => ?_⟩
    obtain rfl := Option.some.inj (hl.symm.trans hl')
    omega
  subst hinputs
  have hrun : Run.AllStates Node.step (Harmless timer) u (mid ++ .fire k :: suf) :=
    Run.allStates_of_allSteps (fun _ _ _ hharmless hmeets hs => harmless_step hmeets hharmless hs) hstart (h.rest hpre)
  exact (hrun mid (.fire k :: suf) rfl s hmid).not_ends hends

def unanswered : List Node.Input := [.request (.plain 1 10 11) (.startCall 5), .tick 20000, .fire 0]

theorem unanswered_fair : FairEndings unanswered := by
  refine fair_of_unhurried unanswered (Run.allSteps_cons.2 ⟨.inr ?_, fun s hs => ?_⟩)
  · exact ⟨trivial, trivial, trivial, trivial, trivial, trivial, trivial⟩
  · cases hs
    exact Run.allSteps_cons.2 ⟨.inr trivial,
      fun _ _ => Run.allSteps_cons.2 ⟨.inr trivial, fun _ _ => Run.allSteps_nil⟩⟩

/-- User 2 leaves a call, joins it again and leaves once more a second before the first timeout. -/
def leaveTwice : List Node.Input :=
  [.request (.plain 1 10 11) (.startCall 5), .request (.plain 2 20 21) (.joinCall 5), .tick 1000,
    .request (.plain 2 30 31) (.leaveCall 5), .tick 1000, .request (.plain 2 40 41) (.joinCall 5), .tick 8000]

theorem rejoined_ended :
    ¬ FairEndings (leaveTwice ++ [.request (.plain 2 50 51) (.leaveCall 5), .tick 1000, .fire 1]) := by
  intro h
  obtain ⟨u, s, call, hu, hs, hk, hclock', hclock, hl, hlen, hlen'⟩ : ∃ u s call,
      Run.exec Node.step .init leaveTwice = some u ∧
        Run.exec Node.step u [.request (.plain 2 50 51) (.leaveCall 5), .tick 1000] = some s ∧
          s.timers[1]? = some ⟨.empty, 10, 1000⟩ ∧ s.clock = 11000 ∧ u.clock = 10000 ∧
            u.manager.lookup 10 = some call ∧ call.participants.len = 2 ∧
              (s.manager.lookup 10).map (·.participants.len) = some 1 :=
    ⟨_, _, _, rfl, rfl, rfl, rfl, rfl, rfl, rfl, rfl⟩
  obtain ⟨call', hl', hlen'⟩ := Option.map_eq_some_iff.1 hlen'
  have hends : s.Ends 1 ⟨.empty, 10, 1000⟩ :=
    Node.ends_of_alone hk (by simp [hclock', Timeout.window]) hl' hlen'.le
  have hwindow : s.clock < u.clock + Timeout.empty.window := by simp [hclock, hclock', Timeout.window]
  have hle := h leaveTwice _ 1 [] u s _ call rfl hu hs hends hwindow hl
  omega

end CallTimeouts

end Rustchat.Calls
