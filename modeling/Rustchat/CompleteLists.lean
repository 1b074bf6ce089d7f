import Rustchat.MessageRun

/-!
# No message lost

`MessageRun.complete_iff_keeps` says in which runs every root post that was received, and is not deleted, stays in
the list of its channel, and every message sent from here in the list it was added to until its send has
succeeded or failed.
-/

open FirstMatch (upsertFirst)

namespace Rustchat

open Client

namespace MessageRun

variable {s s' : MessageRun} {input : MessageInput} {n : ℕ} {ref : ListRef} {message : Message} {post : Post}
  {c id channelId userId content : String} {rootId : Option String} {send : Send}

/-- `id` is a root post of the channel whose posted event has been handled and whose deletion has not. -/
def Received (s : MessageRun) (ref : ListRef) (id : String) : Prop :=
  ∃ channelId, ref = .channel channelId ∧ (channelId, id) ∈ s.posted ∧ id ∉ s.deleted

/-- The list has to have `id`: a post that was received, or a message whose send has neither succeeded nor failed. -/
def Wanted (s : MessageRun) (ref : ListRef) (id : String) : Prop :=
  s.Received ref id ∨ ∃ send, s.sends.lookup id = some send ∧ send.Live ∧ ref = send.home

def Complete (s : MessageRun) : Prop := ∀ ref id, s.Wanted ref id → id ∈ (s.client.list ref).map Message.id

/-- The first match can give way to the post `new`: it is not a post that was received, or it is `new`, or the
list has it a second time. -/
def Spares (s : MessageRun) (ref : ListRef) (p : Message → Bool) (new : Option String) : Prop :=
  ∀ m, (s.client.list ref).find? p = some m → s.Received ref m.id →
    some m.id = new ∨ m.id ∈ ((s.client.list ref).eraseP p).map Message.id

/-- The condition on a step: an array that takes the place of a list has what the list has to have, and the
entry that gives way to a post is no other post that was received. -/
def Keeps (s : MessageRun) : MessageInput → Prop
  | .assigned n =>
    ∀ r posts, s.requests[n]? = some r → r.posts = some posts → (r.result (s.own r.channelId) posts).isSome →
      ∀ id, s.Wanted (.channel r.channelId) id → id ∈ (fetched posts).map Message.id ∨
        id ∈ (r.current.messages (s.own r.channelId)).map Message.id
  | .answered clientMsgId post => s.Spares (postToMessage post).home (fun m => Stands clientMsgId m) post.id
  | .posted post =>
    let message := postToMessage post
    s.Spares message.home (fun m => SameMessage message m) post.id ∧
      (message.rootId ≠ none → s.Spares (.channel message.channelId) (fun m => SameMessage message m) none)
  | _ => True

section Spares

variable {p : Message → Bool} {new : Option String}

theorem mem_map_upsertFirst {l : List Message} :
    id ∈ (upsertFirst p message l).map Message.id ↔ id = message.id ∨ id ∈ (l.eraseP p).map Message.id := by
  simp only [List.mem_map, FirstMatch.mem_upsertFirst, or_and_right, exists_or, exists_eq_left]
  rw [eq_comm]

theorem mem_map_eraseP {l : List Message} (h : id ∈ l.map Message.id) (hp : ∀ m ∈ l, m.id = id → ¬ p m) :
    id ∈ (l.eraseP p).map Message.id := by
  obtain ⟨m, hm, rfl⟩ := List.mem_map.1 h
  rcases FirstMatch.mem_eraseP_of_mem hm with hfirst | hm'
  · exact absurd (List.find?_some hfirst) (hp m hm rfl)
  · exact List.mem_map_of_mem hm'

theorem Spares.mem (h : s.Spares ref p new) (hreceived : s.Received ref id) (hc : s.Complete) :
    some id = new ∨ id ∈ ((s.client.list ref).eraseP p).map Message.id := by
  obtain ⟨m, hm, rfl⟩ := List.mem_map.1 (hc ref id (.inl hreceived))
  rcases FirstMatch.mem_eraseP_of_mem hm with hfirst | hm'
  · exact h m hfirst hreceived
  · exact .inr (List.mem_map_of_mem hm')

theorem mem_eraseP_of_live (hinv : s.Inv) (hc : s.Complete) (hsend : s.sends.lookup id = some send) (hlive : send.Live)
    (hp : ∀ m, m.id = id → m.clientMsgId = some id → ¬ p m) :
    id ∈ ((s.client.list send.home).eraseP p).map Message.id := by
  refine mem_map_eraseP (hc _ id (.inr ⟨send, hsend, hlive, rfl⟩)) fun m hm hid => hp m hid ?_
  rw [← hid]
  refine (hinv.held m (.inl ⟨_, hm⟩)).temp ?_
  rw [hid]
  exact mem_sends hsend

end Spares

theorem complete_assigned (hc : s.Complete) (hs : step s (.assigned n) = some s') :
    s'.Complete ↔ s.Keeps (.assigned n) := by
  obtain ⟨r, posts, hn, hp, rfl⟩ := step_assigned hs
  have hwanted : ∀ ref id, (s.assigned n r posts).Wanted ref id ↔ s.Wanted ref id := by
    intro ref id
    unfold MessageRun.assigned
    cases r.result _ posts <;> rfl
  constructor
  · intro hc' r' posts' hn' hp' hsome id hid
    obtain rfl := Option.some.inj (hn.symm.trans hn')
    obtain rfl := Option.some.inj (hp.symm.trans hp')
    obtain ⟨messages, hresult⟩ := Option.isSome_iff_exists.1 hsome
    have hmem := hc' _ id ((hwanted _ id).2 hid)
    rw [list_assigned, if_pos rfl, hresult, Option.getD_some, mem_result hresult, List.map_append] at hmem
    exact List.mem_append.1 hmem
  · intro hkeeps ref id hid
    rw [hwanted] at hid
    rw [list_assigned]
    split
    · rename_i href
      subst href
      cases hresult : r.result (s.own r.channelId) posts with
      | none => exact hc _ id hid
      | some messages =>
        rw [Option.getD_some, mem_result hresult, List.map_append]
        exact List.mem_append.2 (hkeeps r posts hn hp (by rw [hresult]; rfl) id hid)
    · exact hc ref id hid

theorem complete_answered (hinv : s.Inv) (hc : s.Complete) (hs : step s (.answered c post) = some s') :
    s'.Complete ↔ s.Keeps (.answered c post) := by
  obtain ⟨send, hsend, hhome, -, rfl⟩ := step_answered hs
  have hhas : s.client.Has (postToMessage post).home := hhome ▸ hinv.has c send hsend
  constructor
  · intro hc' m hfirst hreceived
    have hmem := hc' _ m.id (.inl hreceived)
    dsimp only at hmem
    rw [list_updateOptimisticMessage hhas, if_pos rfl, mem_map_upsertFirst] at hmem
    exact hmem.imp_left (congrArg some)
  · intro hkeeps ref id hid
    dsimp only
    rw [list_updateOptimisticMessage hhas]
    rcases hid with hreceived | ⟨send', hsend', hlive, rfl⟩
    · split
      · rename_i href
        subst href
        rw [mem_map_upsertFirst]
        exact (hkeeps.mem hreceived hc).imp_left Option.some.inj
      · exact hc ref id (.inl hreceived)
    · obtain ⟨send₀, hsend₀, -, hsame⟩ := lookup_end hsend hsend'
      obtain ⟨rfl, hne⟩ := hsame hlive
      split
      · rw [mem_map_upsertFirst]
        right
        refine mem_eraseP_of_live hinv hc hsend₀ hlive fun m hid hclient hstands => ?_
        rcases (of_decide_eq_true hstands : Stands c m) with heq | heq
        · exact hne (Option.some.inj (hclient.symm.trans heq))
        · exact hne (hid.symm.trans heq)
      · exact hc _ id (.inr ⟨send', hsend₀, hlive, rfl⟩)

/-- What a list has to have after an event: the event's post, what it had to have before, and messages sent from here
that the event's post does not match. -/
theorem wanted_posted (hs : step s (.posted post) = some s') (h : s'.Wanted ref id) :
    (ref = (postToMessage post).home ∧ id = post.id) ∨ s.Received ref id ∨
      ∃ send, s.sends.lookup id = some send ∧ send.Live ∧ ref = send.home ∧
        ∀ m : Message, m.id = id → m.clientMsgId = some id → ¬ SameMessage (postToMessage post) m := by
  obtain ⟨hserver, rfl⟩ := step_posted hs
  rcases h with ⟨channelId, rfl, hmem, hdel⟩ | ⟨send, hsend, hlive, rfl⟩
  · dsimp only at hmem
    split at hmem
    · rename_i hroot
      rcases List.mem_cons.1 hmem with hnew | hold
      · cases hnew
        left
        rw [Message.home, hroot]
        exact ⟨rfl, rfl⟩
      · exact .inr (.inl ⟨channelId, rfl, hold, hdel⟩)
    · exact .inr (.inl ⟨channelId, rfl, hmem, hdel⟩)
  · dsimp only at hsend
    rw [lookup_arrive] at hsend
    obtain ⟨send₀, hsend₀, rfl⟩ := Option.map_eq_some_iff.1 hsend
    have harrived : ¬ (send₀.arrived = true ∨ post.clientMsgId = some id) := by simpa using hlive.2
    refine .inr (.inr ⟨send₀, hsend₀, ⟨hlive.1, fun ha => harrived (.inl ha)⟩, rfl, ?_⟩)
    rintro m hid hclient (hsame | ⟨-, -, hsame⟩)
    · refine hserver ?_
      rw [show post.id = id from hsame.symm.trans hid]
      exact mem_sends hsend₀
    · exact harrived (.inr (hsame.symm.trans hclient))

theorem received_posted (hs : step s (.posted post) = some s') (h : s.Received ref id) :
    s'.Received ref id := by
  obtain ⟨-, rfl⟩ := step_posted hs
  obtain ⟨channelId, href, hmem, hdel⟩ := h
  refine ⟨channelId, href, ?_, hdel⟩
  dsimp only
  split
  · exact List.mem_cons_of_mem _ hmem
  · exact hmem

theorem complete_posted (hinv : s.Inv) (hc : s.Complete) (hs : step s (.posted post) = some s') :
    s'.Complete ↔ s.Keeps (.posted post) := by
  have hclient : s'.client = handleNewMessage s.client post := by
    obtain ⟨-, rfl⟩ := step_posted hs
    rfl
  have hne : (postToMessage post).rootId ≠ none →
      ListRef.channel (postToMessage post).channelId ≠ (postToMessage post).home := by
    intro hroot
    obtain ⟨rootId, hrootId⟩ := Option.ne_none_iff_exists'.1 hroot
    rw [Message.home, hrootId]
    exact nofun
  constructor
  · intro hc'
    constructor
    · intro m hfirst hold
      have hmem := hc' _ m.id (.inl (received_posted hs hold))
      rw [hclient, list_handleNewMessage rfl, if_pos rfl, mem_map_upsertFirst] at hmem
      exact hmem.imp_left (congrArg some)
    · intro hroot m hfirst hold
      have hmem := hc' _ m.id (.inl (received_posted hs hold))
      rw [hclient, list_handleNewMessage rfl, if_neg (hne hroot), if_pos ⟨hroot, rfl⟩] at hmem
      exact .inr hmem
  · rintro ⟨hhome, hchannel⟩ ref id hid
    rw [hclient, list_handleNewMessage rfl]
    rcases wanted_posted hs hid with ⟨rfl, rfl⟩ | hold | ⟨send, hsend, hlive, rfl, htemp⟩
    · rw [if_pos rfl, mem_map_upsertFirst]
      exact .inl rfl
    · split
      · rename_i href
        subst href
        rw [mem_map_upsertFirst]
        exact (hhome.mem hold hc).imp_left Option.some.inj
      · split
        · rename_i hreply
          obtain ⟨hroot, rfl⟩ := hreply
          exact ((hchannel hroot).mem hold hc).resolve_left nofun
        · exact hc ref id (.inl hold)
    · have hkept := mem_eraseP_of_live hinv hc hsend hlive fun m hm hcl hp => htemp m hm hcl (of_decide_eq_true hp)
      split
      · rw [mem_map_upsertFirst]
        exact .inr hkept
      · split
        · exact hkept
        · exact hc _ id (.inr ⟨send, hsend, hlive, rfl⟩)

theorem complete_sendMessage (hc : s.Complete) (hs : step s (.sendMessage c channelId userId content rootId) = some s') :
    s'.Complete := by
  obtain ⟨-, rfl⟩ := step_sendMessage hs
  have hold : ∀ ref id, id ∈ (s.client.list ref).map Message.id → id ∈ ((addOptimisticMessage s.client
      (tempMessage c channelId userId content rootId)).list ref).map Message.id := by
    intro ref id hid
    rw [list_addOptimisticMessage]
    split
    · rw [List.map_append]
      exact List.mem_append_left _ hid
    · exact hid
  rintro ref id (hreceived | ⟨send, hsend, hlive, rfl⟩)
  · exact hold ref id (hc ref id (.inl hreceived))
  · rcases Assoc.lookup_insert_cases hsend with ⟨rfl, rfl⟩ | ⟨-, hsend⟩
    · dsimp only
      rw [list_addOptimisticMessage, if_pos rfl, List.map_append]
      exact List.mem_append_right _ (List.mem_singleton.2 rfl)
    · exact hold _ id (hc _ id (.inr ⟨send, hsend, hlive, rfl⟩))

theorem complete_deleted (hc : s.Complete) (hs : step s (.deleted id) = some s') : s'.Complete := by
  obtain ⟨hnot, rfl⟩ := step_deleted hs
  have hold : ∀ ref id', id' ≠ id → id' ∈ (s.client.list ref).map Message.id →
      id' ∈ ((handleMessageDelete s.client id).list ref).map Message.id := by
    intro ref id' hne hid
    rw [list_handleMessageDelete]
    exact mem_map_eraseP hid fun m _ hm hp => hne (hm.symm.trans (of_decide_eq_true hp))
  rintro ref id' (⟨channelId, rfl, hmem, hdel⟩ | ⟨send, hsend, hlive, rfl⟩)
  · obtain ⟨hne, hdel⟩ := List.ne_and_not_mem_of_not_mem_cons hdel
    exact hold _ id' hne (hc _ id' (.inl ⟨channelId, rfl, hmem, hdel⟩))
  · refine hold _ id' ?_ (hc _ id' (.inr ⟨send, hsend, hlive, rfl⟩))
    rintro rfl
    exact hnot (mem_sends hsend)

theorem complete_iff (hinv : s.Inv) (hc : s.Complete) (hs : step s input = some s') :
    s'.Complete ↔ s.Keeps input := by
  by_cases hw : Writes input
  · cases input with
    | assigned n => exact complete_assigned hc hs
    | answered c post => exact complete_answered hinv hc hs
    | posted post => exact complete_posted hinv hc hs
    | sendMessage c channelId userId content rootId => exact iff_of_true (complete_sendMessage hc hs) trivial
    | deleted id => exact iff_of_true (complete_deleted hc hs) trivial
    | _ => exact hw.elim
  · obtain ⟨hclient, hposted, hdeleted, hsends⟩ := step_of_not_writes hs hw
    have hkeeps : s.Keeps input := by
      cases input with
      | assigned | answered | posted => exact absurd trivial hw
      | _ => trivial
    refine iff_of_true ?_ hkeeps
    rintro ref id (⟨channelId, href, hmem, hdel⟩ | ⟨send, hsend, hlive, href⟩)
    · rw [hclient]
      exact hc ref id (.inl ⟨channelId, href, hposted ▸ hmem, hdeleted ▸ hdel⟩)
    · rw [hclient]
      exact hc ref id (.inr ⟨send, hsends id send hsend hlive, hlive, href⟩)

/-- Whatever the steps of a run, no list loses a message exactly if all steps meet the condition. -/
theorem complete_iff_keeps (currentChannelId username : Option String) (inputs : List MessageInput) (t : MessageRun)
    (hrun : Run.exec step (init currentChannelId username) inputs = some t) :
    Run.AllStates step Complete (init currentChannelId username) inputs ↔
      Run.AllSteps step Keeps (init currentChannelId username) inputs := by
  refine Run.allStates_iff_allSteps (fun _ _ _ hinv hs => hinv.step hs) (fun _ _ _ hinv hc hs => complete_iff hinv hc hs)
    (inv_init _ _) ?_ hrun
  rintro ref id (⟨channelId, -, hmem, -⟩ | ⟨send, hsend, -⟩)
  · cases hmem
  · cases hsend

theorem posted_kept : Run.AllStates step Complete (init none none)
    [.posted ⟨"p", some "town", some "ann", "hello", none, none, false, none⟩, .deleted "p"] := by
  refine (complete_iff_keeps none none _ _ rfl).2 (Run.allSteps_cons.2 ⟨⟨nofun, nofun⟩, fun s hs => ?_⟩)
  exact Run.allSteps_cons.2 ⟨trivial, fun s hs => Run.allSteps_nil⟩

/-- A message of another is posted while the channel is fetched, after the server has read its posts. -/
theorem posted_lost : ¬ Run.AllStates step Complete (init none none)
    [.fetchMessages "town", .snapshot 0 [], .posted ⟨"p", some "town", some "ann", "hello", none, none, false, none⟩,
      .assigned 0] := by
  intro h
  have hc := h [_, _, _, _] [] rfl _ rfl (.channel "town") "p" (.inl ⟨"town", rfl, List.mem_cons_self, List.not_mem_nil⟩)
  exact absurd hc (by decide +kernel)

end MessageRun

end Rustchat
