import Rustchat.MessageRun

/-!
# No message twice

`MessageRun.clean_of_once` says in which runs no list of messages has a post twice, or one that was deleted,
whenever no send is pending.
-/

open FirstMatch (upsertFirst)

namespace Rustchat

open Client

namespace MessageRun

variable {s s' : MessageRun} {input : MessageInput} {n : ℕ} {r r' : ListRequest} {ref : ListRef} {message : Message}
  {posts : List Post} {post : Post} {c id channelId userId content : String} {rootId : Option String}

/-- No id twice, and none of a deleted post. -/
def Tidy (deleted : List String) (messages : List Message) : Prop :=
  (messages.map Message.id).Nodup ∧ ∀ m ∈ messages, m.id ∉ deleted

def Clean (s : MessageRun) : Prop := ∀ ref, Tidy s.deleted (s.client.list ref)

/-- No send is pending. -/
def Quiet (s : MessageRun) : Prop := ∀ c send, s.sends.lookup c = some send → ¬ send.pending

/-- If `id` is in the list, it is the id of the first match. -/
def GivesWay (p : Message → Bool) (messages : List Message) (id : String) : Prop :=
  ∀ m ∈ messages, m.id = id → ∃ m', messages.find? p = some m' ∧ m'.id = id

/-- The condition on a step: a post that it brings is not deleted, and where the list has it already it is the
entry that gives way; what is added in front of an array is not in it, and nothing of the array was deleted. -/
def Once (s : MessageRun) : MessageInput → Prop
  | .assigned n =>
    ∀ r posts, s.requests[n]? = some r → r.posts = some posts → (r.result (s.own r.channelId) posts).isSome →
      (∀ m ∈ fetched posts, m.id ∉ s.deleted ∧ m.id ∉ (r.current.messages (s.own r.channelId)).map Message.id) ∧
        ∀ m ∈ r.current.messages (s.own r.channelId), m.id ∉ s.deleted
  | .answered clientMsgId post =>
    post.id ∉ s.deleted ∧
      GivesWay (fun m => Stands clientMsgId m) (s.client.list (postToMessage post).home) post.id
  | .posted post =>
    post.id ∉ s.deleted ∧
      GivesWay (fun m => SameMessage (postToMessage post) m) (s.client.list (postToMessage post).home) post.id
  | _ => True

/-- The arrays that were a channel's list have no message twice. -/
def Detached (s : MessageRun) : Prop := ∀ r ∈ s.requests, ((r.current.messages []).map Message.id).Nodup

section Tidy

variable {deleted : List String} {l l₁ l₂ : List Message} {p : Message → Bool}

theorem Tidy.sublist (h : Tidy deleted l₂) (hl : l₁.Sublist l₂) : Tidy deleted l₁ :=
  ⟨h.1.sublist (hl.map _), fun m hm => h.2 m (hl.subset hm)⟩

theorem Tidy.concat (h : Tidy deleted l) (hnot : message.id ∉ deleted) (hnew : ∀ m ∈ l, m.id ≠ message.id) :
    Tidy deleted (l ++ [message]) := by
  constructor
  · rw [List.map_append, List.nodup_append']
    refine ⟨h.1, List.nodup_singleton _, fun id hid hid' => ?_⟩
    obtain ⟨m, hm, rfl⟩ := List.mem_map.1 hid
    exact hnew m hm (List.mem_singleton.1 hid')
  · intro m hm
    rcases List.mem_append.1 hm with hm | hm
    · exact h.2 m hm
    · rw [List.mem_singleton.1 hm]
      exact hnot

theorem Tidy.delete (h : Tidy deleted l) : Tidy (id :: deleted) (l.eraseP fun m => m.id = id) := by
  have herase : (l.eraseP fun m => m.id = id).map Message.id = (l.map Message.id).erase id := by
    rw [List.erase_eq_eraseP', List.eraseP_map]
    rfl
  refine ⟨h.1.sublist (List.eraseP_sublist.map _), fun m hm hdel => ?_⟩
  rcases List.mem_cons.1 hdel with hid | hdel
  · have hmem : m.id ∈ (l.eraseP fun m => m.id = id).map Message.id := List.mem_map_of_mem hm
    rw [herase, hid] at hmem
    exact h.1.not_mem_erase hmem
  · exact h.2 m (List.mem_of_mem_eraseP hm) hdel

theorem tidy_upsertFirst (h : Tidy deleted l) :
    Tidy deleted (upsertFirst p message l) ↔ message.id ∉ deleted ∧ GivesWay p l message.id := by
  constructor
  · intro hnew
    exact ⟨hnew.2 _ (FirstMatch.mem_upsertFirst.2 (.inl rfl)),
      (FirstMatch.nodup_map_upsertFirst h.1).1 hnew.1⟩
  · rintro ⟨hnot, hgives⟩
    refine ⟨(FirstMatch.nodup_map_upsertFirst h.1).2 hgives, fun m hm => ?_⟩
    rcases FirstMatch.mem_upsertFirst.1 hm with rfl | hm
    · exact hnot
    · exact h.2 m (List.mem_of_mem_eraseP hm)

theorem tidy_append (h₁ : (l₁.map Message.id).Nodup) (h₂ : (l₂.map Message.id).Nodup) : Tidy deleted (l₁ ++ l₂) ↔
    (∀ m ∈ l₁, m.id ∉ deleted ∧ m.id ∉ l₂.map Message.id) ∧ ∀ m ∈ l₂, m.id ∉ deleted := by
  unfold Tidy
  rw [List.map_append, List.nodup_append']
  constructor
  · rintro ⟨⟨-, -, hdisj⟩, hnot⟩
    exact ⟨fun m hm => ⟨hnot m (List.mem_append_left _ hm), fun hid => hdisj (List.mem_map_of_mem hm) hid⟩,
      fun m hm => hnot m (List.mem_append_right _ hm)⟩
  · rintro ⟨hfront, hback⟩
    refine ⟨⟨h₁, h₂, fun id hid => ?_⟩, fun m hm => ?_⟩
    · obtain ⟨m, hm, rfl⟩ := List.mem_map.1 hid
      exact (hfront m hm).2
    · rcases List.mem_append.1 hm with hm | hm
      · exact (hfront m hm).1
      · exact hback m hm

end Tidy

theorem Listing.nodup_fetched (h : s.Listing posts) : ((fetched posts).map Message.id).Nodup := by
  rw [fetched, List.map_reverse, List.nodup_reverse, List.map_map]
  exact h.nodup.sublist (List.filter_sublist.map _)

/-- A call of `s'` was started with nothing, or with an array that one of `s` has or that was a channel's list. -/
theorem current_step (hs : step s input = some s') (hr : r' ∈ s'.requests) : r'.current.messages [] = [] ∨
    (∃ r ∈ s.requests, r'.current = r.current) ∨ ∃ channelId, r'.current = .detached (s.own channelId) := by
  have hsame : r' ∈ s.requests → r'.current.messages [] = [] ∨
      (∃ r ∈ s.requests, r'.current = r.current) ∨ ∃ channelId, r'.current = .detached (s.own channelId) :=
    fun hmem => .inr (.inl ⟨r', hmem, rfl⟩)
  have hconcat : ∀ r₁ : ListRequest, r₁.current.messages [] = [] → r' ∈ s.requests ++ [r₁] →
      r'.current.messages [] = [] ∨
        (∃ r ∈ s.requests, r'.current = r.current) ∨
          ∃ channelId, r'.current = .detached (s.own channelId) := by
    intro r₁ hnone hmem
    rcases List.mem_append.1 hmem with hmem | hmem
    · exact hsame hmem
    · rw [List.mem_singleton.1 hmem]
      exact .inl hnone
  cases input with
  | fetchMessages channelId =>
    cases hs
    exact hconcat _ rfl hr
  | fetchOlderMessages channelId =>
    cases hs
    unfold fetchOlderMessages at hr
    split at hr
    · exact hsame hr
    · split at hr <;> exact hconcat _ rfl hr
  | snapshot n posts =>
    obtain ⟨r, hn, -, -, rfl⟩ := step_snapshot hs
    rcases List.mem_or_eq_of_mem_set hr with hr | rfl
    · exact hsame hr
    · exact .inr (.inl ⟨r, List.mem_of_getElem? hn, rfl⟩)
  | assigned n =>
    obtain ⟨r, posts, -, -, rfl⟩ := step_assigned hs
    obtain ⟨r₀, hr₀, -, hcurrent | hcurrent⟩ := mem_requests_assigned hr
    · exact .inr (.inl ⟨r₀, hr₀, hcurrent⟩)
    · exact .inr (.inr ⟨_, hcurrent⟩)
  | listFailed n =>
    rw [step_listFailed hs] at hr
    exact hsame (List.mem_of_mem_eraseIdx hr)
  | sendMessage c channelId userId content rootId =>
    obtain ⟨-, rfl⟩ := step_sendMessage hs
    exact hsame hr
  | answered c post =>
    obtain ⟨send, -, -, -, rfl⟩ := step_answered hs
    exact hsame hr
  | failed c =>
    obtain ⟨send, -, rfl⟩ := step_failed hs
    exact hsame hr
  | posted post =>
    obtain ⟨-, rfl⟩ := step_posted hs
    exact hsame hr
  | deleted id =>
    obtain ⟨-, rfl⟩ := step_deleted hs
    exact hsame hr

theorem Detached.step (h : s.Detached) (hclean : s.Clean) (hs : step s input = some s') : s'.Detached := by
  intro r' hr'
  rcases current_step hs hr' with hnone | ⟨r, hr, hcurrent⟩ | ⟨channelId, hcurrent⟩
  · rw [hnone]
    exact List.nodup_nil
  · rw [hcurrent]
    exact h r hr
  · rw [hcurrent]
    exact (hclean (.channel channelId)).1

theorem Detached.nodup (h : s.Detached) (hclean : s.Clean) (hr : r ∈ s.requests) :
    ((r.current.messages (s.own channelId)).map Message.id).Nodup := by
  have hr := h r hr
  cases hcurrent : r.current with
  | nothing => exact List.nodup_nil
  | own => exact (hclean (.channel channelId)).1
  | detached messages => rwa [hcurrent] at hr

theorem clean_iff_of_list (ref : ListRef) (h : s.Clean) (hdeleted : s'.deleted = s.deleted)
    (hother : ∀ ref', ref' ≠ ref → s'.client.list ref' = s.client.list ref') :
    s'.Clean ↔ Tidy s.deleted (s'.client.list ref) := by
  constructor
  · exact fun hc => hdeleted ▸ hc ref
  · intro hl ref'
    rw [hdeleted]
    by_cases href : ref' = ref
    · exact href ▸ hl
    · exact hother ref' href ▸ h ref'

theorem clean_assigned (hinv : s.Inv) (h : s.Clean) (hd : s.Detached) (hs : step s (.assigned n) = some s') :
    s'.Clean ↔ s.Once (.assigned n) := by
  obtain ⟨r, posts, hn, hp, rfl⟩ := step_assigned hs
  have hr := List.mem_of_getElem? hn
  have hdeleted : (s.assigned n r posts).deleted = s.deleted := by
    unfold MessageRun.assigned
    cases r.result _ posts <;> rfl
  rw [clean_iff_of_list _ h hdeleted fun ref' href => list_assigned.trans (if_neg href), list_assigned,
    if_pos rfl]
  constructor
  · intro htidy r' posts' hn' hp' hsome
    obtain rfl := Option.some.inj (hn.symm.trans hn')
    obtain rfl := Option.some.inj (hp.symm.trans hp')
    obtain ⟨messages, hresult⟩ := Option.isSome_iff_exists.1 hsome
    rw [hresult, Option.getD_some, mem_result hresult] at htidy
    exact (tidy_append (hinv.listing r hr posts hp).nodup_fetched (hd.nodup h hr)).1 htidy
  · intro honce
    cases hresult : r.result (s.own r.channelId) posts with
    | none => exact h (.channel r.channelId)
    | some messages =>
      rw [Option.getD_some, mem_result hresult]
      refine (tidy_append (hinv.listing r hr posts hp).nodup_fetched (hd.nodup h hr)).2 ?_
      exact honce r posts hn hp (by rw [hresult]; rfl)

theorem clean_answered (hinv : s.Inv) (h : s.Clean) (hs : step s (.answered c post) = some s') :
    s'.Clean ↔ s.Once (.answered c post) := by
  obtain ⟨send, hsend, hhome, -, rfl⟩ := step_answered hs
  have hhas : s.client.Has (postToMessage post).home := hhome ▸ hinv.has c send hsend
  refine Iff.trans (clean_iff_of_list (postToMessage post).home h rfl fun ref' href => ?_) ?_
  · exact (list_updateOptimisticMessage hhas).trans (if_neg href)
  · dsimp only
    rw [list_updateOptimisticMessage hhas, if_pos rfl]
    exact tidy_upsertFirst (h _)

theorem clean_posted (h : s.Clean) (hs : step s (.posted post) = some s') :
    s'.Clean ↔ s.Once (.posted post) := by
  obtain ⟨-, rfl⟩ := step_posted hs
  constructor
  · intro hc
    have hl := hc (postToMessage post).home
    dsimp only at hl
    rw [list_handleNewMessage rfl, if_pos rfl] at hl
    exact (tidy_upsertFirst (h _)).1 hl
  · intro honce ref
    dsimp only
    rw [list_handleNewMessage rfl]
    split
    · rename_i href
      rw [href]
      exact (tidy_upsertFirst (h _)).2 honce
    · split
      · exact (h ref).sublist List.eraseP_sublist
      · exact h ref

theorem clean_sendMessage (hinv : s.Inv) (h : s.Clean)
    (hs : step s (.sendMessage c channelId userId content rootId) = some s') : s'.Clean := by
  obtain ⟨hnew, rfl⟩ := step_sendMessage hs
  intro ref
  dsimp only
  rw [list_addOptimisticMessage]
  split
  · refine (h ref).concat (fun hid => hnew (hinv.deleted _ hid)) fun m hm hid => hnew ?_
    rw [show c = m.id from hid.symm]
    exact (hinv.held m (.inl ⟨ref, hm⟩)).used
  · exact h ref

theorem clean_deleted (h : s.Clean) (hs : step s (.deleted id) = some s') : s'.Clean := by
  obtain ⟨-, rfl⟩ := step_deleted hs
  intro ref
  dsimp only
  rw [list_handleMessageDelete]
  exact (h ref).delete

theorem clean_iff_once (hinv : s.Inv) (h : s.Clean) (hd : s.Detached) (hs : step s input = some s') :
    s'.Clean ↔ s.Once input := by
  by_cases hw : Writes input
  · cases input with
    | assigned n => exact clean_assigned hinv h hd hs
    | answered c post => exact clean_answered hinv h hs
    | posted post => exact clean_posted h hs
    | sendMessage c channelId userId content rootId => exact iff_of_true (clean_sendMessage hinv h hs) trivial
    | deleted id => exact iff_of_true (clean_deleted h hs) trivial
    | _ => exact hw.elim
  · obtain ⟨hclient, -, hdeleted, -⟩ := step_of_not_writes hs hw
    have honce : s.Once input := by
      cases input with
      | assigned | answered | posted => exact absurd trivial hw
      | _ => trivial
    refine iff_of_true (fun ref => ?_) honce
    rw [hclient, hdeleted]
    exact h ref

theorem clean_init (currentChannelId username : Option String) : (init currentChannelId username).Clean := by
  intro ref
  cases ref <;> exact ⟨List.nodup_nil, fun m hm => absurd hm List.not_mem_nil⟩

theorem tidy_of_once {currentChannelId username : Option String} {inputs : List MessageInput}
    (h : Run.AllSteps step Once (init currentChannelId username) inputs) :
    Run.AllStates step (fun s => s.Inv ∧ s.Clean ∧ s.Detached) (init currentChannelId username) inputs := by
  refine Run.allStates_of_allSteps ?_ ⟨inv_init _ _, clean_init _ _, fun r hr => absurd hr List.not_mem_nil⟩ h
  rintro s input s' ⟨hinv, hc, hd⟩ honce hs
  exact ⟨hinv.step hs, (clean_iff_once hinv hc hd hs).2 honce, hd.step hc hs⟩

def pendingSends (s : MessageRun) : ℕ :=
  Assoc.total (fun send : Send => if send.pending then 1 else 0) s.sends

theorem exists_fewer_sends (h : ¬ s.Clean) (hbusy : ¬ s.Quiet) :
    ∃ inputs s', Run.exec step s inputs = some s' ∧ ¬ s'.Clean ∧ s'.pendingSends < s.pendingSends := by
  simp only [Quiet, not_forall, not_not] at hbusy
  obtain ⟨c, send, hsend, hpending⟩ := hbusy
  have hs : step s (.failed c) = some { s with sends := s.sends.insert c { send with pending := false } } := by
    simp only [step, hsend]
    rw [if_pos hpending]
  refine ⟨[_], _, Run.exec_singleton.trans hs, h, ?_⟩
  simp only [pendingSends]
  rw [Assoc.total_insert, Assoc.total_eq_of_lookup hsend]
  simp [hpending]

/-- In a run whose steps all meet the condition, no list has a message twice or one that was deleted whenever
no send is pending. After any other step the pending sends can fail such that one has. -/
theorem clean_of_once (currentChannelId username : Option String) (inputs : List MessageInput) :
    (Run.AllSteps step Once (init currentChannelId username) inputs →
      Run.AllStates step (fun s => s.Quiet → s.Clean) (init currentChannelId username) inputs) ∧
    (Run.AllSteps step Once (init currentChannelId username) inputs →
      ∀ s input s', Run.exec step (init currentChannelId username) inputs = some s → step s input = some s' →
        ¬ s.Once input → ∃ inputs' t, Run.exec step s' inputs' = some t ∧ t.Quiet ∧ ¬ t.Clean) := by
  constructor
  · exact fun h => (tidy_of_once h).mono fun s hs _ => hs.2.1
  · intro h s input s' hrun hs honce
    obtain ⟨hinv, hc, hd⟩ := (tidy_of_once h).last hrun
    have hnot : ¬ s'.Clean := fun hc' => honce ((clean_iff_once hinv hc hd hs).1 hc')
    obtain ⟨inputs', t, ht, hnot, hquiet⟩ := Run.exists_exec pendingSends (fun _ => exists_fewer_sends) hnot
    exact ⟨inputs', t, ht, hquiet, hnot⟩

/-- A message is sent, the channel is fetched with the message's post, and then the answer to the send comes. -/
theorem answered_twice : ¬ Run.AllStates step (fun s => s.Quiet → s.Clean) (init none none)
    [.sendMessage "c" "town" "me" "hello" none, .fetchMessages "town",
      .snapshot 0 [⟨"p", some "town", some "me", "hello", none, none, false, none⟩], .assigned 0,
      .answered "c" ⟨"p", some "town", some "me", "hello", none, some "c", false, none⟩] := by
  intro h
  have hclean := h [_, _, _, _, _] [] rfl _ rfl ?_ (.channel "town")
  · exact absurd hclean.1 (by decide +kernel)
  · intro c send hc
    rcases Assoc.lookup_insert_cases hc with ⟨-, rfl⟩ | ⟨hne, hc⟩
    · exact Bool.false_ne_true
    · rcases Assoc.lookup_insert_cases hc with ⟨heq, -⟩ | ⟨-, hc⟩
      · exact absurd heq hne
      · cases hc

end MessageRun

end Rustchat
