import Rustchat.EmailAccounts
import Rustchat.Lib.Prog

/-!
# ICE candidates of a participant (`calls_plugin/sfu/mod.rs`)

A candidate that comes before the offer waits in a queue, which the offer empties once it has set the remote
description. `handle_ice_candidate` looks for the description first and puts the candidate in the queue afterwards, so
an offer can come between; and where the peer connection refuses a candidate of the queue, those behind it are gone.
Otherwise every candidate is handed over exactly once (`IceCandidates.handed_of_timely`, `IceCandidates.left_behind`).
-/

namespace Rustchat.Calls

/-- `RTCIceCandidateInit` -/
structure IceCandidateInit where
  candidate : String
  sdpMid : Option String
  sdpMlineIndex : Option UInt16
  usernameFragment : Option String
deriving DecidableEq

/-- The peer connection of a participant, what was handed to its `add_ice_candidate`, and the queue of the SFU. -/
structure IceState where
  remoteDescription : Option String
  localDescription : Option String
  handed : List IceCandidateInit
  pending : List IceCandidateInit

inductive IceAct
  | setRemoteDescription (offer : String)
  | remoteIsNone
  | addIceCandidate (candidate : IceCandidateInit)
  | pushPending (candidate : IceCandidateInit)
  | takePending
  | createAnswer
  | setLocalDescription (answer : String)
  | localDescription

def IceAct.Res : IceAct → Type
  | setRemoteDescription _ => Except String Unit
  | remoteIsNone => Bool
  | addIceCandidate _ => Except String Unit
  | pushPending _ => Unit
  | takePending => List IceCandidateInit
  | createAnswer => Except String String
  | setLocalDescription _ => Except String Unit
  | localDescription => Option String

/-- What the peer connection answers; it may keep a description that it answers with an error. -/
structure PeerAnswer where
  result : Except String String
  keeps : Bool

def PeerAnswer.accepted (o : PeerAnswer) : Except String Unit := o.result.map fun _ => ()

inductive IceReply
  | answered (sdp : String)
  | taken

namespace IceCandidates

def init : IceState := ⟨none, none, [], []⟩

/-- An access to the peer connection or to the queue. -/
def perform (o : PeerAnswer) : (act : IceAct) → IceState → act.Res × IceState
  | .setRemoteDescription offer, s =>
    (o.accepted, if o.accepted.isOk || o.keeps then { s with remoteDescription := some offer } else s)
  | .remoteIsNone, s => (s.remoteDescription.isNone, s)
  | .addIceCandidate candidate, s => (o.accepted, { s with handed := candidate :: s.handed })
  | .pushPending candidate, s => ((), { s with pending := s.pending ++ [candidate] })
  | .takePending, s => (s.pending, { s with pending := [] })
  | .createAnswer, s => (o.result, s)
  | .setLocalDescription answer, s =>
    (o.accepted, if o.accepted.isOk || o.keeps then { s with localDescription := some answer } else s)
  | .localDescription, s => (s.localDescription, s)

abbrev IceProg := Prog IceAct IceAct.Res

abbrev IceHandler (α : Type) := ExceptT String IceProg α

section Methods

def setRemoteDescription (offer : String) : IceHandler Unit :=
  ExceptT.mk (Prog.call (IceAct.setRemoteDescription offer))
def remoteIsNone : IceHandler Bool := ExceptT.lift (Prog.call IceAct.remoteIsNone)
def addIceCandidate (candidate : IceCandidateInit) : IceHandler Unit :=
  ExceptT.mk (Prog.call (IceAct.addIceCandidate candidate))
def pushPending (candidate : IceCandidateInit) : IceHandler Unit :=
  ExceptT.lift (Prog.call (IceAct.pushPending candidate))
def takePending : IceHandler (List IceCandidateInit) := ExceptT.lift (Prog.call IceAct.takePending)
def createAnswer : IceHandler String := ExceptT.mk (Prog.call IceAct.createAnswer)
def setLocalDescription (answer : String) : IceHandler Unit :=
  ExceptT.mk (Prog.call (IceAct.setLocalDescription answer))
def localDescription : IceHandler (Option String) := ExceptT.lift (Prog.call IceAct.localDescription)

/-- The loop of `flush_pending_ice_candidates`; an error ends it. -/
def addAll : List IceCandidateInit → IceHandler Unit
  | [] => pure ()
  | candidate :: candidates => do
    addIceCandidate candidate
    addAll candidates

def flushPendingIceCandidates : IceHandler Unit := do
  let pending ← takePending
  addAll pending

def finalAnswer : Option String → IceHandler IceReply
  | some answer => pure (.answered answer)
  | none => throw "No local description"

/-- `handle_offer` behind the flush. -/
def answerOffer : IceHandler IceReply := do
  let answer ← createAnswer
  setLocalDescription answer
  let found ← localDescription
  finalAnswer found

def handleOffer (offer : String) : IceHandler IceReply := do
  setRemoteDescription offer
  flushPendingIceCandidates
  answerOffer

-- `serde_json::from_str`
variable (fromStr : String → Except String IceCandidateInit)

def parseClientIceCandidate (candidate : String) (sdpMid : Option String) (sdpMlineIndex : Option UInt16) :
    Except String IceCandidateInit :=
  let trimmed := trimText candidate
  if trimmed = "" then .error "ICE candidate cannot be empty"
  else if trimmed.toList.head? = some '{' then fromStr trimmed
  else .ok ⟨trimmed, sdpMid, sdpMlineIndex, none⟩

/-- Without a remote description the candidate waits. -/
def queueOrAdd (candidateInit : IceCandidateInit) : Bool → IceHandler Unit
  | true => pushPending candidateInit
  | false => addIceCandidate candidateInit

def takeCandidate (candidateInit : IceCandidateInit) : IceHandler IceReply := do
  let isNone ← remoteIsNone
  queueOrAdd candidateInit isNone
  pure .taken

def handleIceCandidate (candidate : String) (sdpMid : Option String) (sdpMlineIndex : Option UInt16) :
    IceHandler IceReply :=
  match parseClientIceCandidate fromStr candidate sdpMid sdpMlineIndex with
  | .ok candidateInit => takeCandidate candidateInit
  | .error e => throw e

end Methods

inductive IceRequest
  | offer (sdp : String)
  | candidate (text : String) (sdpMid : Option String) (sdpMlineIndex : Option UInt16)

abbrev IceTask := Pool.Task IceRequest IceAct IceAct.Res (Except String IceReply)

abbrev IceRequests := Pool IceState IceRequest IceAct IceAct.Res (Except String IceReply)

section Requests

variable (fromStr : String → Except String IceCandidateInit)

def program : IceRequest → IceProg (Except String IceReply)
  | .offer sdp => (handleOffer sdp).run
  | .candidate text sdpMid sdpMlineIndex => (handleIceCandidate fromStr text sdpMid sdpMlineIndex).run

abbrev step : IceRequests → Pool.Input IceRequest PeerAnswer → Option IceRequests :=
  Pool.step (program fromStr) fun _ => perform

def IceRequest.brings : IceRequest → Option IceCandidateInit
  | .offer _ => none
  | .candidate text sdpMid sdpMlineIndex => (parseClientIceCandidate fromStr text sdpMid sdpMlineIndex).toOption

/-- The request brought `c` and returned `Ok`. -/
def accepted (c : IceCandidateInit) (task : IceTask) : ℕ :=
  match task.label.brings fromStr, task.prog with
  | some c', .done (.ok _) => if c' = c then 1 else 0
  | _, _ => 0

/-- The request brought `c` and returned the error of `add_ice_candidate`. -/
def refused (c : IceCandidateInit) (task : IceTask) : ℕ :=
  match task.label.brings fromStr, task.prog with
  | some c', .done (.error _) => if c' = c then 1 else 0
  | _, _ => 0

/-- Every candidate has been handed over as often as requests with it were accepted, or refused by the peer connection
itself, and none waits. -/
structure AllHanded (pool : IceRequests) : Prop where
  once : ∀ c, pool.shared.handed.count c = Assoc.total (accepted fromStr c) pool.tasks + Assoc.total (refused fromStr c) pool.tasks
  pending : pool.shared.pending = []

/-- Some offer has succeeded. -/
def OfferSucceeded (pool : IceRequests) : Prop :=
  ∃ t sdp reply, pool.tasks.lookup t = some ⟨.offer sdp, .done (.ok reply)⟩

end Requests

/-- An offer that is still to empty the queue. -/
def Awaits (task : IceTask) : Prop :=
  match task.prog with
  | .perform (.setRemoteDescription _) _ => True
  | .perform .takePending _ => True
  | _ => False

/-- An offer that has emptied the queue, and has succeeded or still may. -/
def HasFlushed (task : IceTask) : Prop :=
  match task.label with
  | .offer _ => ¬ Awaits task ∧ ∀ e, task.prog ≠ .done (.error e)
  | .candidate _ _ _ => False

/-- The candidates that the program hands over if none is refused. -/
def toHand : IceProg (Except String IceReply) → List IceCandidateInit
  | .perform (.addIceCandidate candidate) next => candidate :: toHand (next (.ok ()))
  | _ => []

/-- The step of `t` leaves no candidate behind. -/
structure Timely (pool : IceRequests) (t : ℕ) (o : PeerAnswer) : Prop where
  -- where an offer has emptied the queue, a candidate is queued only for another offer
  queued : ∀ label c next, pool.Performs t label (.pushPending c) next → Assoc.Any HasFlushed pool.tasks →
    Assoc.Any Awaits pool.tasks
  -- and the last such offer does not fail while candidates wait
  described : ∀ label offer next e, pool.Performs t label (.setRemoteDescription offer) next → o.result = .error e →
    Assoc.Any HasFlushed pool.tasks → pool.shared.pending ≠ [] → ∃ t' task, t' ≠ t ∧
      pool.tasks.lookup t' = some task ∧ Awaits task
  -- only the last candidate of a flush is refused
  added : ∀ label c next e, pool.Performs t label (.addIceCandidate c) next → o.result = .error e →
    toHand (next (.ok ())) = []

def TimelyInput (pool : IceRequests) : Pool.Input IceRequest PeerAnswer → Prop
  | .spawn _ _ => True
  | .step t o => Timely pool t o

variable {fromStr : String → Except String IceCandidateInit} {pool pool' : IceRequests} {t : ℕ} {o : PeerAnswer}
  {p : IceProg (Except String IceReply)} {c : IceCandidateInit} {cs : List IceCandidateInit}

/-- The program goes on with this when the peer connection answers with an error. -/
def Fails (next : Except String Unit → IceProg (Except String IceReply)) : Prop :=
  ∀ e, ∃ e', next (.error e) = .done (.error e')

/-- Behind the flush. -/
def Answers : IceProg (Except String IceReply) → Prop
  | .done _ => True
  | .perform .createAnswer next => ∀ r, Answers (next r)
  | .perform (.setLocalDescription _) next => ∀ r, Answers (next r)
  | .perform .localDescription next => ∀ r, Answers (next r)
  | .perform _ _ => False

def Adding : List IceCandidateInit → IceProg (Except String IceReply) → Prop
  | [], p => Answers p
  | c :: cs, p => ∃ next, p = .perform (.addIceCandidate c) next ∧ Adding cs (next (.ok ())) ∧ Fails next

def Takes (p : IceProg (Except String IceReply)) : Prop :=
  ∃ next, p = .perform .takePending next ∧ ∀ cs, Adding cs (next cs)

/-- Where a request is: an offer before its description is set, before, in and behind the flush, or a candidate before
its two accesses and behind them. -/
inductive Placed (fromStr : String → Except String IceCandidateInit) : IceRequest → IceProg (Except String IceReply) → Prop
  | sets (sdp : String) (next : Except String Unit → IceProg (Except String IceReply)) (hok : Takes (next (.ok ())))
    (hfails : Fails next) : Placed fromStr (.offer sdp) (.perform (.setRemoteDescription sdp) next)
  | takes (sdp : String) (next : List IceCandidateInit → IceProg (Except String IceReply))
    (hnext : ∀ cs, Adding cs (next cs)) : Placed fromStr (.offer sdp) (.perform .takePending next)
  | adds (sdp : String) (cs : List IceCandidateInit) (p : IceProg (Except String IceReply)) (h : Adding cs p) :
    Placed fromStr (.offer sdp) p
  | asks (request : IceRequest) (c : IceCandidateInit) (hc : request.brings fromStr = some c) :
    Placed fromStr request (takeCandidate c).run
  | pushes (request : IceRequest) (c : IceCandidateInit) (hc : request.brings fromStr = some c) :
    Placed fromStr request (.perform (.pushPending c) fun _ : Unit => .done (.ok .taken))
  | hands (request : IceRequest) (c : IceCandidateInit) (next : Except String Unit → IceProg (Except String IceReply))
    (hc : request.brings fromStr = some c) (hok : next (.ok ()) = .done (.ok .taken)) (hfails : Fails next) :
    Placed fromStr request (.perform (.addIceCandidate c) next)
  | ended (request : IceRequest) (r : Except String IceReply) (h : ∀ sdp, request ≠ .offer sdp) :
    Placed fromStr request (.done r)

theorem answers_answerOffer : Answers answerOffer.run := by
  intro answer
  cases answer with
  | error e => trivial
  | ok answer =>
    intro r
    cases r with
    | error e => trivial
    | ok _ =>
      intro found
      cases found with
      | none => trivial
      | some answer => trivial

theorem adding_addAll (cs : List IceCandidateInit) : Adding cs (addAll cs >>= fun _ => answerOffer).run := by
  induction cs with
  | nil => exact answers_answerOffer
  | cons c cs ih => exact ⟨_, rfl, ih, fun e => ⟨e, rfl⟩⟩

theorem placed_program (request : IceRequest) : Placed fromStr request (program fromStr request) := by
  cases request with
  | offer sdp =>
    have hflush : ∀ cs, Adding cs (addAll cs >>= fun _ => answerOffer).run := adding_addAll
    exact .sets sdp _ ⟨_, rfl, hflush⟩ fun e => ⟨e, rfl⟩
  | candidate text sdpMid sdpMlineIndex =>
    unfold program handleIceCandidate
    dsimp only
    split
    · next c hc => exact .asks _ c (by rw [IceRequest.brings, hc]; rfl)
    · exact .ended _ _ fun sdp => by simp

inductive Step (fromStr : String → Except String IceCandidateInit) (s : IceState) (o : PeerAnswer) :
    IceRequest → IceProg (Except String IceReply) → IceState → IceProg (Except String IceReply) → Prop
  | described (sdp : String) (next : Except String Unit → IceProg (Except String IceReply)) (s' : IceState)
    (p' : IceProg (Except String IceReply)) (hhanded : s'.handed = s.handed)
    (hpending : s'.pending = s.pending)
    (h : Takes p') : Step fromStr s o (.offer sdp) (.perform (.setRemoteDescription sdp) next) s' p'
  | failed (sdp : String) (next : Except String Unit → IceProg (Except String IceReply)) (s' : IceState) (e e' : String)
    (hhanded : s'.handed = s.handed) (hpending : s'.pending = s.pending) (ho : o.result = .error e) :
    Step fromStr s o (.offer sdp) (.perform (.setRemoteDescription sdp) next) s' (.done (.error e'))
  | took (sdp : String) (next : List IceCandidateInit → IceProg (Except String IceReply))
    (p' : IceProg (Except String IceReply)) (h : Adding s.pending p') :
    Step fromStr s o (.offer sdp) (.perform .takePending next) { s with pending := [] } p'
  | added (sdp : String) (c : IceCandidateInit) (next : Except String Unit → IceProg (Except String IceReply))
    (cs : List IceCandidateInit) (p' : IceProg (Except String IceReply)) (hcs : toHand (next (.ok ())) = cs)
    (h : Adding cs p') :
    Step fromStr s o (.offer sdp) (.perform (.addIceCandidate c) next) { s with handed := c :: s.handed } p'
  | dropped (sdp : String) (c : IceCandidateInit) (next : Except String Unit → IceProg (Except String IceReply))
    (e e' : String) (ho : o.result = .error e) :
    Step fromStr s o (.offer sdp) (.perform (.addIceCandidate c) next) { s with handed := c :: s.handed }
      (.done (.error e'))
  | answers (sdp : String) (p : IceProg (Except String IceReply)) (s' : IceState)
    (p' : IceProg (Except String IceReply)) (hhanded : s'.handed = s.handed)
    (hpending : s'.pending = s.pending)
    (hperform : p.isDone = false) (h : Answers p) (h' : Answers p') : Step fromStr s o (.offer sdp) p s' p'
  | asked (request : IceRequest) (c : IceCandidateInit) (p' : IceProg (Except String IceReply))
    (hc : request.brings fromStr = some c) (hp' : Placed fromStr request p') (hperform : p'.isDone = false) :
    Step fromStr s o request (takeCandidate c).run s p'
  | queued (request : IceRequest) (c : IceCandidateInit) (hc : request.brings fromStr = some c) :
    Step fromStr s o request (.perform (.pushPending c) fun _ : Unit => .done (.ok .taken))
      { s with pending := s.pending ++ [c] } (.done (.ok .taken))
  | handed (request : IceRequest) (c : IceCandidateInit) (next : Except String Unit → IceProg (Except String IceReply))
    (r : Except String IceReply) (hc : request.brings fromStr = some c) :
    Step fromStr s o request (.perform (.addIceCandidate c) next) { s with handed := c :: s.handed } (.done r)

theorem toHand_add {next : Except String Unit → IceProg (Except String IceReply)} :
    toHand (.perform (.addIceCandidate c) next) = c :: toHand (next (.ok ())) := rfl

theorem toHand_of_answers (h : Answers p) : toHand p = [] := by
  cases p with
  | done a => rfl
  | perform act next =>
    cases act with
    | addIceCandidate c => exact h.elim
    | _ => rfl

theorem toHand_of_adding (h : Adding cs p) : toHand p = cs := by
  induction cs generalizing p with
  | nil => exact toHand_of_answers h
  | cons c cs ih =>
    obtain ⟨next, rfl, hnext, -⟩ := h
    exact congrArg (c :: ·) (ih hnext)

theorem accepted_eq (o : PeerAnswer) :
    (∃ e, o.result = .error e ∧ o.accepted = .error e) ∨ o.accepted = .ok () := by
  unfold PeerAnswer.accepted
  cases o.result with
  | error e => exact .inl ⟨e, rfl, rfl⟩
  | ok sdp => exact .inr rfl

theorem step_of_placed {request : IceRequest} {act : IceAct} {next : act.Res → IceProg (Except String IceReply)}
    {s : IceState} (h : Placed fromStr request (.perform act next)) :
    Step fromStr s o request (.perform act next) (perform o act s).2 (next (perform o act s).1) := by
  generalize hp : Prog.perform act next = p at h
  cases h with
  | sets sdp next' hok hfails =>
    cases hp
    have hsame : ∀ b : Bool, (if b then { s with remoteDescription := some sdp } else s).handed = s.handed ∧
        (if b then { s with remoteDescription := some sdp } else s).pending = s.pending := by
      intro b
      cases b <;> exact ⟨rfl, rfl⟩
    rcases accepted_eq o with ⟨e, ho, haccepted⟩ | haccepted
    · obtain ⟨e', he'⟩ := hfails e
      have hnext : next' (perform o (.setRemoteDescription sdp) s).1 = .done (.error e') := by
        simp only [perform, haccepted, he']
      rw [hnext]
      exact .failed sdp next' _ e e' (hsame _).1 (hsame _).2 ho
    · refine .described sdp next' _ _ (hsame _).1 (hsame _).2 ?_
      simp only [perform, haccepted]
      exact hok
  | takes sdp next' hnext =>
    cases hp
    exact .took sdp next' _ (hnext s.pending)
  | adds sdp cs p h =>
    subst hp
    cases cs with
    | nil =>
      cases act with
      | createAnswer => exact .answers sdp _ _ _ rfl rfl rfl h (h _)
      | setLocalDescription answer =>
        refine .answers sdp _ _ _ ?_ ?_ rfl h (h _)
        · simp only [perform]
          split <;> rfl
        · simp only [perform]
          split <;> rfl
      | localDescription => exact .answers sdp _ _ _ rfl rfl rfl h (h _)
      | _ => exact h.elim
    | cons c cs =>
      obtain ⟨next', hp, hadding, hfails⟩ := h
      cases hp
      rcases accepted_eq o with ⟨e, ho, haccepted⟩ | haccepted
      · obtain ⟨e', he'⟩ := hfails e
        have hnext : next' (perform o (.addIceCandidate c) s).1 = .done (.error e') := by
          simp only [perform, haccepted, he']
        rw [hnext]
        exact .dropped sdp c next' e e' ho
      · refine .added sdp c next' cs _ (toHand_of_adding hadding) ?_
        simp only [perform, haccepted]
        exact hadding
  | asks request c hc =>
    cases hp
    cases hnone : s.remoteDescription with
    | none =>
      refine .asked request c _ hc ?_ ?_
      · simp only [perform, hnone]
        exact .pushes request c hc
      · simp only [perform, hnone]
        rfl
    | some sdp =>
      refine .asked request c _ hc ?_ ?_
      · simp only [perform, hnone]
        exact .hands request c _ hc rfl fun e => ⟨e, rfl⟩
      · simp only [perform, hnone]
        rfl
  | pushes request c hc =>
    cases hp
    exact .queued request c hc
  | hands request c next' hc hok hfails =>
    cases hp
    have hdone : ∃ r, next' (perform o (.addIceCandidate c) s).1 = .done r := by
      rcases accepted_eq o with ⟨e, ho, haccepted⟩ | haccepted
      · obtain ⟨e', he'⟩ := hfails e
        exact ⟨_, by simp only [perform, haccepted]; exact he'⟩
      · exact ⟨_, by simp only [perform, haccepted]; exact hok⟩
    obtain ⟨r, hr⟩ := hdone
    rw [hr]
    exact .handed request c next' r hc
  | ended request r h => cases hp

theorem Step.placed {s s' : IceState} {request : IceRequest} {p' : IceProg (Except String IceReply)}
    (h : Step fromStr s o request p s' p') : Placed fromStr request p' := by
  cases h with
  | described sdp next _ p' hhanded hpending htakes =>
    obtain ⟨next', rfl, hnext⟩ := htakes
    exact .takes sdp next' hnext
  | failed sdp next _ e e' hhanded hpending ho => exact .adds sdp [] _ trivial
  | took sdp next p' h => exact .adds sdp _ p' h
  | added sdp c next cs p' hcs h => exact .adds sdp cs p' h
  | dropped sdp c next e e' ho => exact .adds sdp [] _ trivial
  | answers sdp _ _ p' hhanded hpending hperform h h' => exact .adds sdp [] p' h'
  | asked request c p' hc hp' hperform => exact hp'
  | queued request c hc =>
    refine .ended request _ fun sdp => ?_
    rintro rfl
    cases hc
  | handed request c next r hc =>
    refine .ended request r fun sdp => ?_
    rintro rfl
    cases hc

/-! ### Candidates are counted -/

/-- How often the request is still to hand over a candidate of the queue. -/
def waiting (c : IceCandidateInit) (task : IceTask) : ℕ :=
  match task.label with
  | .offer _ => (toHand task.prog).count c
  | .candidate _ _ _ => 0

def credited (fromStr : String → Except String IceCandidateInit) (c : IceCandidateInit) (task : IceTask) :
    ℕ :=
  accepted fromStr c task + refused fromStr c task

/-- What requests have brought was handed over, waits in the queue or is about to be handed over. -/
def Conserved (fromStr : String → Except String IceCandidateInit) (pool : IceRequests) : Prop :=
  ∀ c, pool.shared.handed.count c + pool.shared.pending.count c + Assoc.total (waiting c) pool.tasks =
    Assoc.total (credited fromStr c) pool.tasks

theorem credited_offer {sdp : String} : credited fromStr c ⟨.offer sdp, p⟩ = 0 := rfl

theorem credited_perform {request : IceRequest} (h : p.isDone = false) :
    credited fromStr c ⟨request, p⟩ = 0 := by
  cases p with
  | done r => cases h
  | perform act next =>
    unfold credited accepted refused
    cases request.brings fromStr <;> rfl

theorem credited_done {request : IceRequest} {r : Except String IceReply} {c' : IceCandidateInit}
    (hc : request.brings fromStr = some c') :
    credited fromStr c ⟨request, .done r⟩ = if c' = c then 1 else 0 := by
  unfold credited accepted refused
  cases r with
  | ok reply => simp only [hc, Nat.add_zero]
  | error e => simp only [hc, Nat.zero_add]

theorem waiting_of_brings {request : IceRequest} {c' : IceCandidateInit} (hc : request.brings fromStr = some c') :
    waiting c ⟨request, p⟩ = 0 := by
  cases request with
  | offer sdp => cases hc
  | candidate text sdpMid sdpMlineIndex => rfl

theorem waiting_offer {sdp : String} : waiting c ⟨.offer sdp, p⟩ = (toHand p).count c := rfl

/-- A step in which the peer connection refuses at most the last candidate of a flush keeps the balance. -/
theorem Step.balance {s s' : IceState} {request : IceRequest} {p' : IceProg (Except String IceReply)}
    (h : Step fromStr s o request p s' p')
    (hadded : ∀ c next e, p = .perform (.addIceCandidate c) next → o.result = .error e → toHand (next (.ok ())) = [])
    (c : IceCandidateInit) :
    s'.handed.count c + s'.pending.count c + waiting c ⟨request, p'⟩ + credited fromStr c ⟨request, p⟩ =
      s.handed.count c + s.pending.count c + waiting c ⟨request, p⟩ + credited fromStr c ⟨request, p'⟩ := by
  cases h with
  | described sdp next _ p' hhanded hpending htakes =>
    obtain ⟨next', rfl, hnext⟩ := htakes
    rw [hhanded, hpending]
    rfl
  | failed sdp next _ e e' hhanded hpending ho =>
    rw [hhanded, hpending]
    rfl
  | took sdp next p' h =>
    have hwaiting : waiting c ⟨.offer sdp, p'⟩ = s.pending.count c :=
      by rw [waiting_offer, toHand_of_adding h]
    have hbefore : waiting c ⟨.offer sdp, .perform .takePending next⟩ = 0 := rfl
    simp only [credited_offer, hwaiting, hbefore, List.count_nil]
    omega
  | added sdp c' next cs p' hcs h =>
    have hwaiting : waiting c ⟨.offer sdp, p'⟩ = cs.count c := by rw [waiting_offer, toHand_of_adding h]
    have hbefore : waiting c ⟨.offer sdp, .perform (.addIceCandidate c') next⟩ = (c' :: cs).count c := by
      rw [waiting_offer, toHand_add, hcs]
    simp only [credited_offer, hwaiting, hbefore, List.count_cons]
    omega
  | dropped sdp c' next e e' ho =>
    have hbefore : waiting c ⟨.offer sdp, .perform (.addIceCandidate c') next⟩ = [c'].count c := by
      rw [waiting_offer, toHand_add, hadded c' next e rfl ho]
    have hafter : waiting c ⟨.offer sdp, .done (.error e')⟩ = 0 := rfl
    simp only [credited_offer, hbefore, hafter, List.count_cons, List.count_nil]
    omega
  | answers sdp _ _ p' hhanded hpending hperform h h' =>
    have hbefore : waiting c ⟨.offer sdp, p⟩ = 0 := by
      rw [waiting_offer, toHand_of_answers h, List.count_nil]
    have hafter : waiting c ⟨.offer sdp, p'⟩ = 0 := by
      rw [waiting_offer, toHand_of_answers h', List.count_nil]
    rw [hhanded, hpending, hbefore, hafter]
    rfl
  | asked request c' p' hc hp' hperform =>
    rw [waiting_of_brings hc, waiting_of_brings hc, credited_perform rfl, credited_perform hperform]
  | queued request c' hc =>
    rw [waiting_of_brings hc, waiting_of_brings hc, credited_perform rfl, credited_done hc]
    simp only [List.count_append, List.count_cons, List.count_nil, beq_iff_eq]
    omega
  | handed request c' next r hc =>
    rw [waiting_of_brings hc, waiting_of_brings hc, credited_perform rfl, credited_done hc]
    simp only [List.count_cons, beq_iff_eq]
    omega

/-! ### Nobody is left in the queue -/

/-- Once an offer has emptied the queue, candidates are in it only for another offer. -/
def Drained (pool : IceRequests) : Prop :=
  Assoc.Any HasFlushed pool.tasks → pool.shared.pending = [] ∨ Assoc.Any Awaits pool.tasks

structure Sound (fromStr : String → Except String IceCandidateInit) (pool : IceRequests) : Prop where
  placed : ∀ t request prog, pool.tasks.lookup t = some ⟨request, prog⟩ → Placed fromStr request prog
  conserved : Conserved fromStr pool
  drained : Drained pool

theorem not_awaits_of_answers {request : IceRequest} (h : Answers p) : ¬ Awaits ⟨request, p⟩ := by
  cases p with
  | done a => exact id
  | perform act next =>
    cases act with
    | setRemoteDescription offer => exact h.elim
    | takePending => exact h.elim
    | _ => exact id

theorem not_hasFlushed_of_brings {request : IceRequest} (hc : request.brings fromStr = some c) :
    ¬ HasFlushed ⟨request, p⟩ := by
  cases request with
  | offer sdp => cases hc
  | candidate text sdpMid sdpMlineIndex => exact id

theorem drained_step {request : IceRequest} {s' : IceState} {p' : IceProg (Except String IceReply)}
    (hl : pool.tasks.lookup t = some ⟨request, p⟩) (h : Drained pool) (htimely : Timely pool t o)
    (hs : Step fromStr pool.shared o request p s' p') : Drained ⟨s', pool.tasks.insert t ⟨request, p'⟩⟩ := by
  have hflushed : (HasFlushed ⟨request, p'⟩ → HasFlushed ⟨request, p⟩) →
      Assoc.Any HasFlushed (pool.tasks.insert t ⟨request, p'⟩) → Assoc.Any HasFlushed pool.tasks := by
    intro hback hany
    rcases Assoc.Any.of_replace (o := some _) hany with ⟨task, htask, hnew⟩ | hany
    · cases htask
      exact ⟨t, _, hl, hback hnew⟩
    · exact hany
  have hawaits : ¬ Awaits ⟨request, p⟩ → Assoc.Any Awaits pool.tasks →
    Assoc.Any Awaits (pool.tasks.insert t ⟨request, p'⟩) :=
    fun hnot hany => hany.replace (o := some _) hl fun hold => absurd hold hnot
  -- the request neither waited for the queue nor comes to have emptied it
  have hsame : ¬ Awaits ⟨request, p⟩ → (HasFlushed ⟨request, p'⟩ → HasFlushed ⟨request, p⟩) →
      s'.pending = pool.shared.pending → Drained ⟨s', pool.tasks.insert t ⟨request, p'⟩⟩ := by
    intro hnot hback hpending hany
    rcases h (hflushed hback hany) with hempty | hany
    · exact .inl (hpending.trans hempty)
    · exact .inr (hawaits hnot hany)
  intro hany
  cases hs with
  | described sdp next _ p' hhanded hpending htakes =>
    obtain ⟨next', rfl, hnext⟩ := htakes
    exact .inr ⟨t, _, Assoc.lookup_insert_self, trivial⟩
  | failed sdp next _ e e' hhanded hpending ho =>
    have hbefore := hflushed (fun hnew => absurd rfl (hnew.2 e')) hany
    by_cases hempty : pool.shared.pending = []
    · exact .inl (hpending.trans hempty)
    · obtain ⟨t', task, ht', hl', hawaits'⟩ := htimely.described _ sdp next e hl ho hbefore hempty
      exact .inr ⟨t', task, by rw [Assoc.lookup_insert_eq, if_neg ht', hl'], hawaits'⟩
  | took sdp next p' h => exact .inl rfl
  | added sdp c next cs p' hcs h => exact hsame id (fun _ => ⟨id, fun e => by simp⟩) rfl hany
  | dropped sdp c next e e' ho => exact hsame id (fun hnew => absurd rfl (hnew.2 e')) rfl hany
  | answers sdp _ _ p' hhanded hpending hperform h h' =>
    have hnot : ¬ Awaits ⟨.offer sdp, p⟩ := not_awaits_of_answers h
    refine hsame hnot (fun _ => ⟨hnot, fun e heq => ?_⟩) hpending hany
    have hdone : p = .done (.error e) := heq
    rw [hdone] at hperform
    cases hperform
  | asked request c p' hc hp' hperform =>
    exact hsame id (fun hnew => absurd hnew (not_hasFlushed_of_brings hc)) rfl hany
  | queued request c hc =>
    have hbefore := hflushed (fun hnew => absurd hnew (not_hasFlushed_of_brings hc)) hany
    exact .inr (hawaits id (htimely.queued _ c _ hl hbefore))
  | handed request c next r hc => exact hsame id (fun hnew => absurd hnew (not_hasFlushed_of_brings hc)) rfl hany

theorem waiting_program (request : IceRequest) : waiting c ⟨request, program fromStr request⟩ = 0 := by
  cases request with
  | offer sdp => rfl
  | candidate text sdpMid sdpMlineIndex => rfl

theorem credited_program (request : IceRequest) :
    credited fromStr c ⟨request, program fromStr request⟩ = 0 := by
  cases request with
  | offer sdp => exact credited_offer
  | candidate text sdpMid sdpMlineIndex =>
    unfold program handleIceCandidate
    dsimp only
    split
    · exact credited_perform rfl
    · next e he =>
      have hbrings : IceRequest.brings fromStr (.candidate text sdpMid sdpMlineIndex) = none := by
        rw [IceRequest.brings, he]
        rfl
      unfold credited accepted refused
      rw [hbrings]
      rfl

theorem not_hasFlushed_program (request : IceRequest) : ¬ HasFlushed ⟨request, program fromStr request⟩ := by
  cases request with
  | offer sdp => exact fun h => h.1 trivial
  | candidate text sdpMid sdpMlineIndex => exact id

theorem sound_step {input : Pool.Input IceRequest PeerAnswer} (h : Sound fromStr pool) (htimely : TimelyInput pool input)
    (hs : step fromStr pool input = some pool') : Sound fromStr pool' := by
  rcases Pool.step_cases hs with ⟨t, request, rfl, hnew, rfl⟩ | ⟨t, o, request, act, next, rfl, hp, rfl⟩
  · refine ⟨fun t' request' prog hl => ?_, fun c => ?_, fun hany => ?_⟩
    · rcases Assoc.lookup_insert_cases hl with ⟨-, heq⟩ | ⟨-, hl⟩
      · cases heq
        exact placed_program request
      · exact h.placed t' request' prog hl
    · have hconserved := h.conserved c
      simp only [Assoc.total_insert_new hnew, waiting_program, credited_program]
      omega
    · have hbefore : Assoc.Any HasFlushed pool.tasks :=
        ((Assoc.any_insert_new hnew).1 hany).resolve_left (not_hasFlushed_program request)
      rcases h.drained hbefore with hempty | hawaits
      · exact .inl hempty
      · exact .inr ((Assoc.any_insert_new hnew).2 (.inr hawaits))
  · have hstep := step_of_placed (o := o) (s := pool.shared) (h.placed t request _ hp)
    refine ⟨fun t' request' prog hl => ?_, fun c => ?_, drained_step hp h.drained htimely hstep⟩
    · rcases Assoc.lookup_insert_cases hl with ⟨-, heq⟩ | ⟨-, hl⟩
      · cases heq
        exact hstep.placed
      · exact h.placed t' request' prog hl
    · have hconserved := h.conserved c
      have hbalance := hstep.balance (fun c next' e heq ho => ?_) c
      · have hwaiting := Assoc.total_insert_of_lookup (f := waiting c)
          (v := ⟨request, next (perform o act pool.shared).1⟩) hp
        have hcredited := Assoc.total_insert_of_lookup (f := credited fromStr c)
          (v := ⟨request, next (perform o act pool.shared).1⟩) hp
        simp only at hwaiting hcredited ⊢
        omega
      · have hp' : pool.Performs t request (.addIceCandidate c) next' := by
          rw [Pool.Performs, ← heq]
          exact hp
        exact htimely.added request c next' e hp' ho

/-- In every run whose steps leave no candidate behind, whenever no request is under way and some offer has succeeded,
every candidate has been handed over exactly once and none waits. -/
theorem handed_of_timely (fromStr : String → Except String IceCandidateInit)
    (inputs : List (Pool.Input IceRequest PeerAnswer))
    (h : Run.AllSteps (step fromStr) TimelyInput (Pool.start init) inputs) :
    Run.AllStates (step fromStr) (fun pool => pool.Quiet → OfferSucceeded pool → AllHanded fromStr pool)
      (Pool.start init) inputs := by
  have hstart : Sound fromStr (Pool.start init) := by
    refine ⟨fun t request prog hl => ?_, fun c => rfl, fun hany => (Assoc.not_any_empty hany).elim⟩
    simp at hl
  have hsound := Run.allStates_of_allSteps (fun _ _ _ hsound htimely hs => sound_step hsound htimely hs) hstart h
  refine hsound.mono fun pool hsound hquiet ⟨t, sdp, reply, hl⟩ => ?_
  -- no offer is under way, so none waits for the queue
  have hnone : ¬ Assoc.Any Awaits pool.tasks := by
    rintro ⟨t', ⟨request, prog⟩, hl', hawaits⟩
    obtain ⟨r, hr⟩ := hquiet t' _ hl'
    have hdone : prog = .done r := hr
    subst hdone
    exact hawaits
  have hflushed : Assoc.Any HasFlushed pool.tasks := ⟨t, _, hl, id, fun e => by simp⟩
  have hempty : pool.shared.pending = [] := (hsound.drained hflushed).resolve_right hnone
  refine ⟨fun c => ?_, hempty⟩
  have hwaiting : Assoc.total (waiting c) pool.tasks = Assoc.total (fun _ => 0) pool.tasks := by
    refine Assoc.total_congr fun t' task hl' => ?_
    obtain ⟨request, prog⟩ := task
    obtain ⟨r, hr⟩ := hquiet t' _ hl'
    have hdone : prog = .done r := hr
    subst hdone
    cases request <;> rfl
  have hzero : Assoc.total (fun _ : IceTask => 0) pool.tasks = 0 := by simp [Assoc.total]
  have hconserved := hsound.conserved c
  have hcredited : Assoc.total (credited fromStr c) pool.tasks =
      Assoc.total (accepted fromStr c) pool.tasks + Assoc.total (refused fromStr c) pool.tasks :=
        Assoc.total_add
  rw [hempty, List.count_nil, hwaiting, hzero, hcredited] at hconserved
  exact hconserved

theorem timely_of_ok {sdp : String} (ho : o.result = .ok sdp)
    (hqueued : ∀ label c next, pool.Performs t label (.pushPending c) next → ¬ Assoc.Any HasFlushed pool.tasks) :
    Timely pool t o where
  queued label c next hp hany := absurd hany (hqueued label c next hp)
  described label offer next e hp he := by
    rw [ho] at he
    cases he
  added label c next e hp he := by
    rw [ho] at he
    cases he

def plainText : String → Except String IceCandidateInit := fun _ => .error "expected value at line 1 column 1"

def answer : PeerAnswer := ⟨.ok "answer", false⟩

/-- A candidate comes before the offer. -/
def candidateFirst : List (Pool.Input IceRequest PeerAnswer) :=
  [.spawn 0 (.candidate "c" none none), .step 0 answer, .step 0 answer, .spawn 1 (.offer "offer"), .step 1 answer,
    .step 1 answer, .step 1 answer, .step 1 answer, .step 1 answer, .step 1 answer]

theorem candidate_first : Run.AllStates (step plainText)
    (fun pool => pool.Quiet → OfferSucceeded pool → AllHanded plainText pool)
    (Pool.start init) candidateFirst := by
  refine handed_of_timely plainText candidateFirst (Run.allSteps_cons.2 ⟨trivial, fun s hs => ?_⟩)
  cases hs
  refine Run.allSteps_cons.2 ⟨timely_of_ok rfl fun label c next hp => ?_, fun s hs => ?_⟩
  · cases hp
  cases hs
  refine Run.allSteps_cons.2 ⟨timely_of_ok rfl fun label c next hp => ?_, fun s hs => ?_⟩
  · -- there is no offer yet
    rintro ⟨t, task, hl, hflushed⟩
    rcases Assoc.lookup_insert_cases hl with ⟨-, rfl⟩ | ⟨-, hl⟩
    · exact hflushed
    · rcases Assoc.lookup_insert_cases hl with ⟨-, rfl⟩ | ⟨-, hl⟩
      · exact hflushed
      · simp at hl
  cases hs
  refine Run.allSteps_cons.2 ⟨trivial, fun s hs => ?_⟩
  cases hs
  refine Run.allSteps_cons.2 ⟨timely_of_ok rfl fun label c next hp => (by cases hp), fun s hs => ?_⟩
  cases hs
  refine Run.allSteps_cons.2 ⟨timely_of_ok rfl fun label c next hp => (by cases hp), fun s hs => ?_⟩
  cases hs
  refine Run.allSteps_cons.2 ⟨timely_of_ok rfl fun label c next hp => (by cases hp), fun s hs => ?_⟩
  cases hs
  refine Run.allSteps_cons.2 ⟨timely_of_ok rfl fun label c next hp => (by cases hp), fun s hs => ?_⟩
  cases hs
  refine Run.allSteps_cons.2 ⟨timely_of_ok rfl fun label c next hp => (by cases hp), fun s hs => ?_⟩
  cases hs
  exact Run.allSteps_cons.2 ⟨timely_of_ok rfl fun label c next hp => (by cases hp),
    fun _ _ => Run.allSteps_nil⟩

/-- The candidate looks for the description before the offer sets it, and is queued when the queue has been emptied. -/
def candidateBehind : List (Pool.Input IceRequest PeerAnswer) :=
  [.spawn 0 (.candidate "c" none none), .step 0 answer, .spawn 1 (.offer "offer"), .step 1 answer, .step 1 answer,
    .step 1 answer, .step 1 answer, .step 1 answer, .step 0 answer]

theorem left_behind : ¬ Run.AllStates (step plainText)
    (fun pool => pool.Quiet → OfferSucceeded pool → AllHanded plainText pool)
    (Pool.start init) candidateBehind := by
  intro h
  obtain ⟨pool, hexec, hquiet, hoffer, hpending⟩ : ∃ pool, Run.exec (step plainText) (Pool.start init) candidateBehind = some pool ∧
      pool.tasks.entries.all (fun e => e.2.prog.isDone) = true ∧
        pool.tasks.lookup 1 = some ⟨.offer "offer", .done (.ok (.answered "answer"))⟩ ∧
          pool.shared.pending = [⟨"c", none, none, none⟩] :=
    ⟨_, rfl, rfl, rfl, rfl⟩
  have hall := h.last hexec (Pool.quiet_of_all hquiet) ⟨1, "offer", _, hoffer⟩
  rw [hall.pending] at hpending
  cases hpending

end IceCandidates

end Rustchat.Calls
