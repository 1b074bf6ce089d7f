import Rustchat.EmailAccounts
import Rustchat.Lib.IpAddr

/-!
# Callback URLs of webhooks (`services/webhooks.rs`)

`is_valid_callback_url` refuses the addresses of internal networks, so that no outgoing webhook is sent there. It reads
the host of the URL as an address: an IPv6 host stands in brackets, which the reader of addresses does not take.
`Webhooks.kept_iff` says which addresses are refused.
-/

namespace Rustchat

namespace Webhooks

inductive Host
  | domain (name : String)
  | ipv4 (addr : Ipv4Addr)
  | ipv6 (addr : Ipv6Addr)

structure Url where
  scheme : String
  host : Option Host

/-- `parse` and the text of an IPv6 host are those of `reqwest::Url`, `toLowercase` is that of Rust. -/
structure Texts where
  parse : String → Option Url
  ipv6Text : Ipv6Addr → String
  toLowercase : String → String
  ipv6_ascii : ∀ addr, ∀ c ∈ (ipv6Text addr).toList, c.toNat < 128
  lowercase_ascii : ∀ text, (∀ c ∈ text.toList, c.toNat < 128) →
    toLowercase text = String.ofList (text.toList.map Char.toLower)

variable (texts : Texts)

def hostStr : Host → String
  | .domain name => name
  | .ipv4 addr => addr.text
  | .ipv6 addr => "[" ++ texts.ipv6Text addr ++ "]"

/-- The ranges that `is_valid_callback_url` blocks. -/
def blocksIp : IpAddr → Bool
  | .v4 addr => decide (addr.a = 10) || decide (addr.a = 172 ∧ 16 ≤ addr.b ∧ addr.b ≤ 31) ||
      decide (addr.a = 192 ∧ addr.b = 168) || decide (addr.a = 127) || decide (addr.a = 169 ∧ addr.b = 254)
  | .v6 addr => decide (addr.segments = #v[0, 0, 0, 0, 0, 0, 0, 1]) || decide (addr.segments[0] &&& 0xffc0 = 0xfe80) ||
      decide (addr.segments[0] &&& 0xfe00 = 0xfc00)

def endsWith (text pattern : String) : Bool := pattern.toList.isSuffixOf text.toList

def isValidCallbackUrl (url : String) : Bool :=
  match texts.parse url with
  | none => false
  | some parsed =>
    if parsed.scheme ≠ "http" ∧ parsed.scheme ≠ "https" then false
    else match parsed.host with
      | none => false
      | some parsedHost =>
        let host := hostStr texts parsedHost
        if host = "localhost" ∨ host = "127.0.0.1" ∨ host = "::1" then false
        else if (IpAddr.parse host).any blocksIp then false
        else
          let hostLower := texts.toLowercase host
          !(decide (hostLower = "169.254.169.254") || endsWith hostLower ".internal" ||
            decide (hostLower = "metadata.google.internal") || decide (hostLower = "instance-data.ec2.internal") ||
              decide (hostLower = "metadata.azure.internal"))

structure OutgoingWebhook where
  teamId : Uuid
  channelId : Option Uuid
  triggerWords : List String
  triggerWhen : String
  callbackUrls : List String
  contentType : Option String
  token : String
  isActive : Bool

structure OutgoingWebhookPayload where
  token : String
  teamId : Uuid
  channelId : Uuid
  channelName : String
  userId : Uuid
  userName : String
  text : String
  triggerWord : String

structure OutgoingRequest where
  url : String
  contentType : String
  payload : OutgoingWebhookPayload

def matchedWord (message : String) (hook : OutgoingWebhook) : Option String :=
  let firstWord := String.ofList (((message.toList.splitOnP isWhitespace).find? fun word => word ≠ []).getD [])
  hook.triggerWords.find? fun word =>
    if hook.triggerWhen = "first_word" then texts.toLowercase firstWord = texts.toLowercase word
    else (texts.toLowercase word).toList <:+: (texts.toLowercase message).toList

/-- `check_outgoing_triggers`: the requests of the first hook that is triggered. -/
def checkOutgoingTriggers (rows : List OutgoingWebhook) (channelId teamId userId : Uuid) (username channelName message : String) :
    List OutgoingRequest :=
  let hooks := rows.filter fun hook =>
    hook.isActive && decide (hook.teamId = teamId) && hook.channelId.all fun id => id = channelId
  match hooks.findSome? fun hook => (matchedWord texts message hook).map fun word => (hook, word) with
  | none => []
  | some (hook, triggerWord) =>
    (hook.callbackUrls.filter fun url => isValidCallbackUrl texts url).map fun url =>
      { url, contentType := hook.contentType.getD "application/json",
        payload := ⟨hook.token, teamId, channelId, channelName, userId, username, message, triggerWord⟩ }

def blockedIpv4 : List (Ipv4Addr × ℕ) :=
  [(⟨10, 0, 0, 0⟩, 8), (⟨127, 0, 0, 0⟩, 8), (⟨172, 16, 0, 0⟩, 12), (⟨192, 168, 0, 0⟩, 16), (⟨169, 254, 0, 0⟩, 16)]

def blockedIpv6 : List (Ipv6Addr × ℕ) :=
  [(⟨#v[0, 0, 0, 0, 0, 0, 0, 1]⟩, 128), (⟨#v[0xfe80, 0, 0, 0, 0, 0, 0, 0]⟩, 10), (⟨#v[0xfc00, 0, 0, 0, 0, 0, 0, 0]⟩, 7)]

def Blocked : IpAddr → Prop
  | .v4 addr => ∃ net ∈ blockedIpv4, addr.InNet net.1 net.2
  | .v6 addr => ∃ net ∈ blockedIpv6, addr.InNet net.1 net.2

theorem blocksIp_v4_iff (addr : Ipv4Addr) : blocksIp (.v4 addr) = true ↔ Blocked (.v4 addr) := by
  obtain ⟨a, b, c, d⟩ := addr
  have ha := a.toNat_lt
  have hb := b.toNat_lt
  have hc := c.toNat_lt
  have hd := d.toNat_lt
  simp [blocksIp, Blocked, blockedIpv4, Ipv4Addr.InNet, Ipv4Addr.toNat, ← UInt8.toNat_inj, UInt8.le_iff_toNat_le]
  omega

theorem blocksIp_v6_iff (addr : Ipv6Addr) : blocksIp (.v6 addr) = true ↔ Blocked (.v6 addr) := by
  obtain ⟨⟨⟨segments⟩, hsize⟩⟩ := addr
  obtain ⟨a, b, c, d, e, f, g, h, rfl⟩ : ∃ a b c d e f g h, segments = [a, b, c, d, e, f, g, h] := by
    match segments, hsize with
    | [a, b, c, d, e, f, g, h], _ => exact ⟨a, b, c, d, e, f, g, h, rfl⟩
  have ha := a.toNat_lt
  have hb := b.toNat_lt
  have hc := c.toNat_lt
  have hd := d.toNat_lt
  have he := e.toNat_lt
  have hf := f.toNat_lt
  have hg := g.toNat_lt
  have hh := h.toNat_lt
  have hfe80 : a.toNat &&& 65472 = a.toNat / 64 % 1024 * 64 := IpAddr.land_mask a.toNat 10 6
  have hfc00 : a.toNat &&& 65024 = a.toNat / 512 % 128 * 512 := IpAddr.land_mask a.toNat 7 9
  simp [blocksIp, Blocked, blockedIpv6, Ipv6Addr.InNet, Ipv6Addr.toNat, ← UInt16.toNat_inj, hfe80, hfc00]
  omega

theorem blocksIp_iff : ∀ ip, blocksIp ip = true ↔ Blocked ip
  | .v4 addr => blocksIp_v4_iff addr
  | .v6 addr => blocksIp_v6_iff addr

/-! ### Hosts -/

variable {texts}

theorem isValidCallbackUrl_ipv6 {url : String} {parsed : Url} {addr : Ipv6Addr} (hparse : texts.parse url = some parsed)
    (hhost : parsed.host = some (.ipv6 addr)) :
    isValidCallbackUrl texts url = true ↔ parsed.scheme = "http" ∨ parsed.scheme = "https" := by
  have htext : hostStr texts (.ipv6 addr) = String.ofList ('[' :: ((texts.ipv6Text addr).toList ++ [']'])) := by
    refine String.toList_injective ?_
    simp [hostStr]
  have hlower : texts.toLowercase (hostStr texts (.ipv6 addr)) =
      String.ofList ('[' :: ((texts.ipv6Text addr).toList.map Char.toLower ++ [']'])) := by
    rw [texts.lowercase_ascii, htext, String.toList_ofList]
    · simp
    · rw [htext, String.toList_ofList]
      intro c hc
      rcases List.mem_cons.1 hc with rfl | hc
      · decide
      · rcases List.mem_append.1 hc with hc | hc
        · exact texts.ipv6_ascii addr c hc
        · rw [List.mem_singleton.1 hc]
          decide
  have hne (chars : List Char) (text : String) (h : text.toList.head? ≠ some '[') : String.ofList ('[' :: chars) ≠ text := by
    rintro rfl
    exact h (by rw [String.toList_ofList, List.head?_cons])
  have hend (chars : List Char) : endsWith (String.ofList ('[' :: (chars ++ [']']))) ".internal" = false := by
    simp only [endsWith, String.toList_ofList, Bool.eq_false_iff, Ne, List.isSuffixOf_iff_suffix]
    rintro ⟨front, h⟩
    have hlast := congrArg List.getLast? h
    rw [← List.cons_append, List.getLast?_concat, List.getLast?_append_of_ne_nil _ (by decide)] at hlast
    exact absurd hlast (by decide)
  have hnames : ¬ (hostStr texts (.ipv6 addr) = "localhost" ∨ hostStr texts (.ipv6 addr) = "127.0.0.1" ∨
      hostStr texts (.ipv6 addr) = "::1") := by
    rw [htext]
    rintro (h | h | h) <;> exact hne _ _ (by decide) h
  have hparsed : (IpAddr.parse (hostStr texts (.ipv6 addr))).any blocksIp = false := by
    rw [htext, IpAddr.parse_bracket]
    rfl
  unfold isValidCallbackUrl
  simp only [hparse, hhost]
  rw [if_neg hnames, hparsed, hlower, hend, decide_eq_false (hne _ _ (by decide)), decide_eq_false (hne _ _ (by decide)),
    decide_eq_false (hne _ _ (by decide)), decide_eq_false (hne _ _ (by decide))]
  split
  · rename_i h
    simp [h.1, h.2]
  · rename_i h
    simpa [or_iff_not_imp_left] using h

theorem isValidCallbackUrl_ipv4 {url : String} {parsed : Url} {addr : Ipv4Addr} (hparse : texts.parse url = some parsed)
    (hhost : parsed.host = some (.ipv4 addr)) (hblocked : Blocked (.v4 addr)) : isValidCallbackUrl texts url = false := by
  have hblocks : (IpAddr.parse addr.text).any blocksIp = true := by
    rw [IpAddr.parse_text, Option.any_some, blocksIp_iff]
    exact hblocked
  unfold isValidCallbackUrl
  simp only [hparse, hhost, hostStr, hblocks]
  split
  · rfl
  · split <;> rfl

/-! ### The refused addresses -/

def Host.ip : Host → Option IpAddr
  | .domain _ => none
  | .ipv4 addr => some (.v4 addr)
  | .ipv6 addr => some (.v6 addr)

/-- The URL is refused, and no message sends a webhook to it. -/
structure Kept (texts : Texts) (url : String) : Prop where
  invalid : isValidCallbackUrl texts url = false
  unsent : ∀ rows channelId teamId userId username channelName message,
    ∀ request ∈ checkOutgoingTriggers texts rows channelId teamId userId username channelName message, request.url ≠ url

theorem valid_of_sent {rows : List OutgoingWebhook} {channelId teamId userId : Uuid} {username channelName message : String}
    {request : OutgoingRequest}
    (h : request ∈ checkOutgoingTriggers texts rows channelId teamId userId username channelName message) :
    isValidCallbackUrl texts request.url = true := by
  unfold checkOutgoingTriggers at h
  dsimp only at h
  split at h
  · cases h
  · obtain ⟨url, hurl, rfl⟩ := List.mem_map.1 h
    exact (List.mem_filter.1 hurl).2

theorem kept_of_invalid {url : String} (h : isValidCallbackUrl texts url = false) : Kept texts url := by
  refine ⟨h, fun rows channelId teamId userId username channelName message request hrequest hurl => ?_⟩
  have hvalid := valid_of_sent hrequest
  rw [hurl, h] at hvalid
  cases hvalid

/-- A URL with an address in a blocked range is refused exactly if the address is an IPv4 address, or the scheme is not
one of the web. -/
theorem kept_iff (texts : Texts) (url : String) (parsed : Url) (host : Host) (ip : IpAddr)
    (hparse : texts.parse url = some parsed) (hhost : parsed.host = some host) (hip : host.ip = some ip)
    (hblocked : Blocked ip) :
    Kept texts url ↔ (∃ addr, ip = .v4 addr) ∨ parsed.scheme ≠ "http" ∧ parsed.scheme ≠ "https" := by
  have hkept : Kept texts url ↔ isValidCallbackUrl texts url = false := ⟨fun h => h.invalid, kept_of_invalid⟩
  rw [hkept]
  rcases host with name | addr | addr
  · cases hip
  · obtain rfl := Option.some.inj hip
    exact iff_of_true (isValidCallbackUrl_ipv4 hparse hhost hblocked) (.inl ⟨addr, rfl⟩)
  · obtain rfl := Option.some.inj hip
    have hnot : ¬ ∃ addr', IpAddr.v6 addr = .v4 addr' := nofun
    rw [or_iff_right hnot, ← not_or, ← isValidCallbackUrl_ipv6 hparse hhost, Bool.not_eq_true]

/-- Two URLs with the addresses `::1` and `10.0.0.1`. -/
def twoUrls : Texts where
  parse url := if url = "http://[::1]/" then some ⟨"http", some (.ipv6 ⟨#v[0, 0, 0, 0, 0, 0, 0, 1]⟩)⟩
    else if url = "http://10.0.0.1/" then some ⟨"http", some (.ipv4 ⟨10, 0, 0, 1⟩)⟩
    else none
  ipv6Text _ := "::1"
  toLowercase text := String.ofList (text.toList.map Char.toLower)
  ipv6_ascii _ := by simp
  lowercase_ascii _ _ := rfl

theorem ten_kept : Kept twoUrls "http://10.0.0.1/" :=
  (kept_iff twoUrls "http://10.0.0.1/" _ _ (.v4 ⟨10, 0, 0, 1⟩) rfl rfl rfl ((blocksIp_iff _).1 (by decide))).2
    (.inl ⟨_, rfl⟩)

/-- The loopback address of IPv6 is in a blocked range, and taken. -/
theorem loopback_not_kept : Blocked (.v6 ⟨#v[0, 0, 0, 0, 0, 0, 0, 1]⟩) ∧ ¬ Kept twoUrls "http://[::1]/" := by
  refine ⟨(blocksIp_iff _).1 (by decide), fun h => ?_⟩
  have hinvalid := h.invalid
  rw [Bool.eq_false_iff] at hinvalid
  exact hinvalid ((isValidCallbackUrl_ipv6 rfl rfl).2 (.inl rfl))

end Webhooks
end Rustchat
