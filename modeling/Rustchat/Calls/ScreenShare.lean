import Rustchat.Calls.NodeRuns

/-!
# Who shares the screen

A call has its screen sharer in one field and a flag with every participant. They agree as long as nobody starts to
share while another does, and nobody who shares joins again (`ScreenShare.agrees_of_calm`): a second sharer takes over
the field and leaves the flag of the first (`ScreenShare.two_sharers`), and a participant who joins with a new session
loses the flag but not the field.
-/

namespace Rustchat.Calls

/-- The field names the participant with the flag, and there is at most one. -/
structure ScreenAgrees (call : CallState) : Prop where
  sharer : ∀ u, call.screenSharer = some u ↔ ∃ p, call.participants.lookup u = some p ∧ p.screenSharing = true
  atMostOne : ∀ u v p q, call.participants.lookup u = some p → call.participants.lookup v = some q →
    p.screenSharing = true → q.screenSharing = true → u = v

namespace ScreenShare

/-- Nobody starts to share a screen in a call where somebody shares, and who shares does not join again. -/
def Calm : ActCondition
  | .mutateCall callId (.setScreenSharing _ true), s =>
    ∀ call, s.manager.lookup callId = some call → call.screenSharer = none
  | .mutateCall callId (.addParticipant p), s =>
    ∀ call, s.manager.lookup callId = some call → call.screenSharer ≠ some p.userId
  | _, _ => True

variable {call : CallState} {u : Uuid} {s : Node} {callId : Uuid}

theorem screenAgrees_iff : ScreenAgrees call ↔
    ∀ u, call.screenSharer = some u ↔ ∃ p, call.participants.lookup u = some p ∧ p.screenSharing = true := by
  refine ⟨fun h => h.sharer, fun h => ⟨h, fun u v p q hp hq hsharing hsharing' => ?_⟩⟩
  have hu := (h u).2 ⟨p, hp, hsharing⟩
  have hv := (h v).2 ⟨q, hq, hsharing'⟩
  exact Option.some.inj (hu.symm.trans hv)

theorem agrees_update {f : Participant → Participant} (hf : ∀ p, (f p).userId = p.userId) {c : CallState}
    (h : ScreenAgrees call) (hsharer : c.screenSharer = call.screenSharer)
    (hc : c.participants = call.participants.update u f hf)
    (hflag : ∀ p, (f p).screenSharing = p.screenSharing) :
    ScreenAgrees c := by
  refine screenAgrees_iff.2 fun v => ?_
  rw [hsharer, h.sharer, hc, Participants.lookup_update]
  split
  · next hv =>
    subst hv
    cases call.participants.lookup v with
    | none => simp
    | some p => simp [hflag]
  · exact Iff.rfl

theorem agrees_of_same {c : CallState} (h : ScreenAgrees call) (hsharer : c.screenSharer = call.screenSharer)
    (hc : c.participants = call.participants) : ScreenAgrees c := by
  refine screenAgrees_iff.2 fun v => ?_
  rw [hsharer, hc]
  exact h.sharer v

theorem agrees_removeParticipant (h : ScreenAgrees call) :
    ScreenAgrees ((Mutation.removeParticipant u).apply call) := by
  refine screenAgrees_iff.2 fun v => ?_
  have hv := h.sharer v
  simp only [Mutation.apply, Participants.lookup_remove]
  by_cases huv : v = u
  · subst huv
    by_cases hs : call.screenSharer = some v <;> simp [hs]
  · by_cases hs : call.screenSharer = some u
    · have hne : call.screenSharer ≠ some v := by
        rw [hs]
        exact fun heq => huv (Option.some.inj heq).symm
      simpa [hs, huv, Ne.symm huv] using hv
    · simpa [hs, huv] using hv

theorem agrees_left (h : ScreenAgrees call) : ScreenAgrees (call.left u) := by
  have hremoved := agrees_removeParticipant (u := u) h
  unfold CallState.left
  dsimp only
  split
  · split
    · exact hremoved
    · exact agrees_of_same hremoved rfl rfl
  · exact hremoved

theorem agrees_step {c : CallState} (hl : s.manager.lookup callId = some call) (h : ScreenAgrees call)
    (hstep : CallStep Calm s callId call c) : ScreenAgrees c := by
  cases hstep with
  | cosmetic mutation hcosmetic =>
    cases mutation with
    | setMuted userId muted => exact agrees_update (f := fun p => { p with muted }) (fun _ => rfl) h rfl rfl fun _ => rfl
    | setHandRaised userId raised =>
      exact agrees_update (f := fun p => { p with handRaised := raised }) (fun _ => rfl) h rfl rfl fun _ => rfl
    | setThreadId threadId => exact agrees_of_same h rfl rfl
    | dismissUserNotification userId => exact agrees_of_same h rfl rfl
    | _ => exact hcosmetic.elim
  | join p hsharing hcalm =>
    refine screenAgrees_iff.2 fun v => ?_
    have hv := h.sharer v
    have hnot : call.screenSharer ≠ some p.userId := hcalm call hl
    simp only [Mutation.apply, Participants.lookup_insert]
    by_cases hvp : v = p.userId
    · subst hvp
      simp [hnot, hsharing]
    · simpa [hvp] using hv
  | left userId hcalm => exact agrees_left h
  | share userId p hp hcalm =>
    refine screenAgrees_iff.2 fun v => ?_
    have hv := h.sharer v
    have hnone : call.screenSharer = none := hcalm call hl
    simp only [Mutation.apply, Participants.lookup_update]
    by_cases hvu : v = userId
    · subst hvu
      simp [hp]
    · simpa [hvu, Ne.symm hvu, hnone] using hv
  | unshare userId =>
    refine screenAgrees_iff.2 fun v => ?_
    have hv := h.sharer v
    by_cases hs : call.screenSharer = some userId
    · by_cases hvu : v = userId
      · subst hvu
        simp [hs, Mutation.apply]
      · have hne : call.screenSharer ≠ some v := by
          rw [hs]
          exact fun heq => hvu (Option.some.inj heq).symm
        simpa [hs, Mutation.apply, hvu, Ne.symm hvu] using hv
    · by_cases hvu : v = userId
      · subst hvu
        simp [hs, Mutation.apply]
      · simpa [hs, Mutation.apply, hvu] using hv
  | host userId p hp => exact agrees_of_same h rfl rfl

/-- In every run whose requests meet the condition the field and the flags agree in every call. -/
theorem agrees_of_calm (inputs : List Node.Input) (h : Run.AllSteps Node.step (Node.Meets Calm) .init inputs) :
    Run.AllStates Node.step (fun s => ∀ id call, s.manager.lookup id = some call → ScreenAgrees call) .init inputs := by
  refine Node.allStates_calls (fun call hempty hsharer => screenAgrees_iff.2 fun u => ?_)
    (fun _ _ _ _ hl hagrees hstep => agrees_step hl hagrees hstep) h
  simp [hempty, hsharer]

def shareAlone : List Node.Input :=
  [.request (.plain 1 10 11) (.startCall 5), .request (.plain 1 30 31) (.toggleScreenShare 5)]

theorem share_alone : Run.AllStates Node.step
    (fun s => ∀ id call, s.manager.lookup id = some call → ScreenAgrees call) .init shareAlone := by
  refine agrees_of_calm shareAlone (Run.allSteps_cons.2 ⟨?_, fun s hs => ?_⟩)
  · refine ⟨trivial, trivial, fun call hl => ?_, trivial, trivial, trivial, trivial⟩
    cases hl
    decide
  · cases hs
    refine Run.allSteps_cons.2 ⟨?_, fun _ _ => Run.allSteps_nil⟩
    refine ⟨trivial, trivial, fun call hl => ?_, trivial, trivial, trivial⟩
    cases hl
    rfl

/-- User 1 starts a call, user 2 joins, and both share their screens. -/
def twoShare : List Node.Input :=
  [.request (.plain 1 10 11) (.startCall 5), .request (.plain 2 20 21) (.joinCall 5),
    .request (.plain 1 30 31) (.toggleScreenShare 5), .request (.plain 2 40 41) (.toggleScreenShare 5)]

theorem two_sharers : ¬ Run.AllStates Node.step
    (fun s => ∀ id call, s.manager.lookup id = some call → ScreenAgrees call) .init twoShare := by
  intro h
  obtain ⟨s, call, hexec, hl, hsharer, hflag⟩ : ∃ s call, Run.exec Node.step .init twoShare = some s ∧
      s.manager.lookup 10 = some call ∧ call.screenSharer = some 2 ∧
        (call.participants.lookup 1).map (·.screenSharing) = some true :=
    ⟨_, _, rfl, rfl, rfl, rfl⟩
  obtain ⟨p, hp, hsharing⟩ := Option.map_eq_some_iff.1 hflag
  have hagrees := h.last hexec 10 call hl
  have hfirst : call.screenSharer = some 1 := (hagrees.sharer 1).2 ⟨p, hp, hsharing⟩
  rw [hsharer] at hfirst
  exact absurd hfirst (by decide)

end ScreenShare

end Rustchat.Calls
