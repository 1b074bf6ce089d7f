import Rustchat.OauthExchange

/-!
# Redemptions of exchange codes (`services/oauth_token_exchange.rs`)

In every run of requests a code is taken out once for each time that it is made, and the token that it ends in is for a
request that is entitled to it (`Oauth.redemption_of_run`).
-/

namespace Rustchat

namespace Oauth

section Runs

variable {s256 : String → String} {now : ℕ} {inputs : List Input} {requests : Requests}

theorem kept_of_run (hrun : Run.exec (step s256) (start now) inputs = some requests) :
    Kept (trace s256 now inputs) requests.shared :=
  Pool.trace_invariant (P := fun events requests => Kept events requests.shared) (fun _ _ _ _ h _ => h)
    (fun _ _ t o request act _ h _ => kept_perform h t request o act)
    ⟨fun key value expiry hl => (by cases hl), fun code => (by simp [start, Pool.start]), Run.each_nil⟩ hrun

theorem exists_taken {t : ℕ} {code value : String} (htook : took code value ∈ Pool.performed (trace s256 now inputs) t) :
    ∃ taken ∈ trace s256 now inputs, taken.task = t ∧ takes code taken = some value := by
  obtain ⟨taken, hmem, heq⟩ := List.mem_map.1 htook
  obtain ⟨hmem, ht⟩ := List.mem_filter.1 hmem
  refine ⟨taken, hmem, of_decide_eq_true ht, ?_⟩
  obtain ⟨task, request, act, res, before, after⟩ := taken
  cases heq
  exact takes_take.2 ⟨rfl, rfl⟩

theorem stored_of_taken (hrun : Run.exec (step s256) (start now) inputs = some requests) {taken : Event}
    (hmem : taken ∈ trace s256 now inputs) {code value : String} (htakes : takes code taken = some value) :
    ∃ older newer, ∃ stored ∈ older, ∃ payload : ExchangeCodePayload,
      trace s256 now inputs = older ++ taken :: newer ∧ value = payload.serialize ∧
      stored.act = .setEx (codeKey code) value oauthCodeTtlSeconds ∧
      taken.after.now ≤ stored.after.now + oauthCodeTtlSeconds * 1000 := by
  obtain ⟨older, newer, htrace⟩ := List.append_of_mem hmem
  obtain ⟨expiry, ⟨stored, hstored, seconds, hact, rfl⟩, hle⟩ :=
    (kept_of_run hrun).taken older taken newer htrace code value htakes
  have hin : stored ∈ trace s256 now inputs := by
    rw [htrace]
    exact List.mem_append_left _ hstored
  have honly : PayloadOnly stored.act :=
    Pool.guar_of_run (fun _ _ _ _ _ => trivial) payloads_run hrun stored hin
  obtain ⟨rfl, payload, rfl⟩ := honly _ _ _ hact
  exact ⟨older, newer, stored, hstored, payload, htrace, rfl, hact, hle⟩

/-- However requests come in between each other, a code ends in one token or one rejection for each time that it is
made, and the token is for a request that is entitled to it. -/
theorem redemption_of_run (s256 : String → String) (now : ℕ) (inputs : List Input) (requests : Requests)
    (hrun : Run.exec (step s256) (start now) inputs = some requests) :
    Redemption s256 (trace s256 now inputs) requests := by
  constructor
  · intro code ts hnodup hts
    have htaken : ∀ t ∈ ts, ∃ taken ∈ trace s256 now inputs, taken.task = t ∧
      (takes code taken).isSome = true := by
      intro t ht
      have htook : ∃ stored, took code stored ∈ Pool.performed (trace s256 now inputs) t := by
        rcases hts t ht with ⟨request, token, hl, hcode⟩ | ⟨request, e, hl, hcode, he⟩
        · obtain ⟨stored, -, htook, -⟩ := (path_request (Pool.path_of_run hrun hl) hcode).1 token rfl
          exact ⟨stored, htook⟩
        · exact (path_request (Pool.path_of_run hrun hl) hcode).2 e he rfl
      obtain ⟨stored, htook⟩ := htook
      obtain ⟨taken, hmem, htask, htakes⟩ := exists_taken htook
      exact ⟨taken, hmem, htask, by rw [htakes]; rfl⟩
    have hle := Pool.length_le_countP hnodup htaken
    have honce := (kept_of_run hrun).once code
    exact (hle.trans (Nat.le_add_right _ _)).trans honce
  · intro t request token code hl hcode
    obtain ⟨value, payload, htook, hread, hentitled, hsigned⟩ :=
      (path_request (Pool.path_of_run hrun hl) hcode).1 token rfl
    obtain ⟨taken, hmem, htask, htakes⟩ := exists_taken htook
    obtain ⟨older, newer, stored, hstored, payload', htrace, rfl, hact, hle⟩ :=
      stored_of_taken hrun hmem htakes
    obtain rfl := ExchangeCodePayload.eq_of_deserialize hread
    exact ⟨older, taken, newer, stored, payload', htrace, htask, htakes, hstored, hact, hle, hentitled,
      hsigned⟩

/-- A code of a mobile login. The request that presents it with the verifier and the state gets a token; the one that
comes after it, with the same, does not. -/
def presentedTwice : List Input :=
  [.spawn 0 (.create 0 "a@b.de" "user" none (some ⟨"s", "TJRIXgwhrmxBzh3-e2v6zupato5AokdvUCCOUm9QYIA", "S256"⟩) "0123456789"),
    .step 0 ⟨0, .answered, .ok ""⟩, .step 0 ⟨0, .answered, .ok ""⟩, .step 0 ⟨1, .answered, .ok ""⟩,
    .spawn 1 (.loginSsoCodeExchange true ⟨some "0123456789", some "v", some "s"⟩),
    .spawn 2 (.loginSsoCodeExchange true ⟨some "0123456789", some "v", some "s"⟩),
    .step 1 ⟨0, .answered, .ok ""⟩, .step 2 ⟨0, .answered, .ok ""⟩, .step 1 ⟨2000, .answered, .ok ""⟩,
    .step 2 ⟨0, .answered, .ok ""⟩, .step 1 ⟨0, .answered, .ok ""⟩, .step 1 ⟨0, .answered, .ok "token"⟩]

theorem redemption_presentedTwice : ∃ requests, Run.exec (step challengeV) (start 0) presentedTwice = some requests ∧
    requests.result 1 = some (.ok "token") ∧
    requests.result 2 = some (.error (.badRequest "Invalid or already used exchange code")) ∧
    Redemption challengeV (trace challengeV 0 presentedTwice) requests := by
  have hresults : (Run.exec (step challengeV) (start 0) presentedTwice).map (fun requests =>
      (requests.result 1, requests.result 2)) = some (some (.ok "token"),
        some (.error (.badRequest "Invalid or already used exchange code"))) := by decide +kernel
  obtain ⟨requests, hrun, heq⟩ := Option.map_eq_some_iff.1 hresults
  obtain ⟨hfirst, hsecond⟩ := Prod.mk.inj heq
  exact ⟨requests, hrun, hfirst, hsecond, redemption_of_run challengeV 0 presentedTwice requests hrun⟩

end Runs

end Oauth

end Rustchat
