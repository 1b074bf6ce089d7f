import Rustchat.EmailAccounts
import Rustchat.Lib.ByteSlice
import Mathlib.Data.FinEnum

/-!
# Texts that are cut by bytes

The `truncate` helper of templates (`services/template_renderer.rs`), the log lines of `send_push_notification` and of
the push proxy (`services/push_notifications.rs`, `push-proxy/src/main.rs`) and `extract_prefix` (`auth/api_key.rs`)
compare lengths in bytes and take a prefix of bytes: they panic if this ends inside a character.
`BytePrefixes.completes_iff` says when. Of the functions the part up to the prefix is modelled; `none` is a panic.
-/

namespace Rustchat

namespace BytePrefixes

open ByteSlice (sliceTo Straddles)

/-- `as_str` of a parameter, with its default. -/
def textParam : Option Json → String
  | some (.str text) => text
  | _ => ""

/-- `as_i64` of a parameter, with its default. Of numbers only integers in range are taken. -/
def lengthParam : Option Json → Int
  | some (.num n) => if -2 ^ 63 ≤ n ∧ n < 2 ^ 63 then n else 100
  | _ => 100

/-- An `i64` as a `usize`. -/
def asUsize (n : Int) : ℕ := (n % 2 ^ 64).toNat

def truncate (params : List Json) : Option String :=
  let text := textParam params[0]?
  let length := asUsize (lengthParam params[1]?)
  if length < text.utf8ByteSize then (sliceTo text length).map fun shown => shown ++ "..." else some text

structure PushNotification where
  deviceToken : String
  platform : String
  priority : String

structure SendLog where
  platform : String
  priority : String
  tokenPrefix : String

def tokenPrefix (token : String) : Option String := sliceTo token (min 20 token.utf8ByteSize)

/-- What `send_push_notification` logs first. The fields of a line are not computed if its level is off. -/
def sendPushNotification (infoEnabled : Bool) (notification : PushNotification) : Option (Option SendLog) :=
  if infoEnabled then
    (tokenPrefix notification.deviceToken).map fun shown => some ⟨notification.platform, notification.priority, shown⟩
  else some none

structure PushRequest where
  token : String
  title : String
  platform : String
  notificationType : String
  subType : Option String

structure ReceiveLog where
  platform : String
  isCall : Bool
  tokenPrefix : String
  title : String

inductive PushRoute
  | iosVoip
  | iosMessage
  | fcm
deriving DecidableEq

structure PushResponse where
  success : Bool
  message : String

/-- `send_notification` of the push proxy: the line it logs and the handler that it goes on to, or a refusal. -/
def sendNotification (toLowercase : String → String) (infoEnabled : Bool) (authKey provided : Option String)
    (payload : PushRequest) : Option (Except PushResponse (Option ReceiveLog × PushRoute)) :=
  if authKey.isSome ∧ provided ≠ authKey then some (.error ⟨false, "Unauthorized"⟩)
  else
    let platform := toLowercase payload.platform
    let isCall := decide (payload.subType = some "calls") || decide (payload.notificationType = "call")
    let route := if platform = "ios" then (if isCall then .iosVoip else .iosMessage) else .fcm
    if infoEnabled then
      (tokenPrefix payload.token).map fun shown => .ok (some ⟨platform, isCall, shown, payload.title⟩, route)
    else some (.ok (none, route))

def extractPrefix (key : String) : Option (Except AppError String) :=
  if key.utf8ByteSize ≠ 68 then
    some (.error (.validation ("Invalid key length: expected 68, got " ++ toString key.utf8ByteSize)))
  else if ¬ "rck_".toList <+: key.toList then
    some (.error (.validation "Invalid key format: must start with rck_"))
  else (sliceTo key 16).map .ok

/-- `HeaderValue::to_str`: only visible ASCII characters and tabs. -/
def headerText (bytes : List UInt8) : Option String :=
  if ∀ b ∈ bytes, 32 ≤ b.toNat ∧ b.toNat < 127 ∨ b.toNat = 9 then some (String.ofList (bytes.map fun b => Char.ofNat b.toNat))
  else none

/-- What follows `Bearer ` in a header. -/
def bearer (header : String) : Option String :=
  if "Bearer ".toList <+: header.toList then some (String.ofList (header.toList.drop 7)) else none

structure Unauthorized where
  message : String

/-- The key prefix that `ApiKeyAuth` looks for, from the `Authorization` header. -/
def apiKeyAuth (header : Option (List UInt8)) : Option (Except Unauthorized String) :=
  match header.bind headerText with
  | none => some (.error ⟨"Missing authorization header"⟩)
  | some text => match bearer text with
    | none => some (.error ⟨"Invalid authorization format"⟩)
    | some key => (extractPrefix key).map fun r => match r with
      | .ok shown => .ok shown
      | .error (.validation message) => .error ⟨"Invalid API key format: Validation error: " ++ message⟩
      | .error _ => .error ⟨"Invalid API key format"⟩

/-- The key prefix that `PolymorphicAuth` looks for, if it comes to that: a bearer that is no valid token. -/
def polymorphicAuth (validToken : String → Bool) (header : List UInt8) : Option (Except Unauthorized (Option String)) :=
  match headerText header with
  | none => some (.error ⟨"Invalid authorization header"⟩)
  | some text => match (bearer text).map trimText with
    | none => some (.ok none)
    | some token =>
      if validToken token then some (.ok none)
      else (extractPrefix token).map fun r => .ok r.toOption

/-! ### Requests -/

inductive Request
  | template (params : List Json)
  | push (infoEnabled : Bool) (notification : PushNotification)
  | proxy (toLowercase : String → String) (infoEnabled : Bool) (authKey provided : Option String) (payload : PushRequest)
  | apiKey (header : Option (List UInt8))
  | polymorphic (validToken : String → Bool) (header : List UInt8)
  -- any text for `extract_prefix`, whether a header can hold it or not
  | extract (key : String)

def Request.completes : Request → Bool
  | .template params => (truncate params).isSome
  | .push infoEnabled notification => (sendPushNotification infoEnabled notification).isSome
  | .proxy toLowercase infoEnabled authKey provided payload =>
    (sendNotification toLowercase infoEnabled authKey provided payload).isSome
  | .apiKey header => (apiKeyAuth header).isSome
  | .polymorphic validToken header => (polymorphicAuth validToken header).isSome
  | .extract key => (extractPrefix key).isSome

/-- No character of the text goes over the byte at which it is cut. -/
def Request.Uncut : Request → Prop
  | .template params => ¬ Straddles (asUsize (lengthParam params[1]?)) (textParam params[0]?).toList
  | .push infoEnabled notification => infoEnabled = true → ¬ Straddles 20 notification.deviceToken.toList
  | .proxy _ infoEnabled authKey provided payload =>
    (authKey = none ∨ provided = authKey) → infoEnabled = true → ¬ Straddles 20 payload.token.toList
  | .apiKey _ => True
  | .polymorphic _ _ => True
  | .extract key => key.utf8ByteSize = 68 → "rck_".toList <+: key.toList → ¬ Straddles 16 key.toList

theorem isSome_truncate_iff {params : List Json} :
    (truncate params).isSome ↔ ¬ Straddles (asUsize (lengthParam params[1]?)) (textParam params[0]?).toList := by
  unfold truncate
  dsimp only
  split
  · rename_i hlt
    rw [Option.isSome_map, ByteSlice.isSome_sliceTo_iff, and_iff_right hlt.le]
  · rename_i hge
    refine iff_of_true rfl fun h => hge ?_
    rw [ByteSlice.utf8ByteSize_eq]
    exact ByteSlice.lt_of_straddles h

theorem isSome_tokenPrefix_iff {token : String} : (tokenPrefix token).isSome ↔ ¬ Straddles 20 token.toList := by
  have hsize := ByteSlice.utf8ByteSize_eq token
  rw [tokenPrefix, ByteSlice.isSome_sliceTo_iff, and_iff_right (Nat.min_le_right ..)]
  refine not_congr ?_
  rcases Nat.le_total 20 token.utf8ByteSize with hlong | hshort
  · rw [Nat.min_eq_left hlong]
  · rw [Nat.min_eq_right hshort]
    constructor <;> intro h <;> have hlt := ByteSlice.lt_of_straddles h <;> omega

theorem isSome_extractPrefix_iff {key : String} : (extractPrefix key).isSome ↔
    (key.utf8ByteSize = 68 → "rck_".toList <+: key.toList → ¬ Straddles 16 key.toList) := by
  unfold extractPrefix
  split
  · rename_i hsize
    exact iff_of_true rfl fun h => absurd h hsize
  · rename_i hsize
    rw [not_ne_iff] at hsize
    split
    · rename_i hstart
      exact iff_of_true rfl fun _ h => absurd h hstart
    · rename_i hstart
      rw [Option.isSome_map, ByteSlice.isSome_sliceTo_iff, hsize, and_iff_right (by decide)]
      exact ⟨fun h _ _ => h, fun h => h rfl (not_not.1 hstart)⟩

/-! ### Keys that are presented -/

theorem ascii_headerText {bytes : List UInt8} {text : String} (h : headerText bytes = some text) :
    ∀ c ∈ text.toList, c.utf8Size = 1 := by
  obtain ⟨hvisible, h⟩ := Option.ite_none_right_eq_some.1 h
  rw [← Option.some.inj h, String.toList_ofList]
  intro c hc
  obtain ⟨b, hb, rfl⟩ := List.mem_map.1 hc
  have hlt : b.toNat < 128 := by
    have hb := hvisible b hb
    omega
  have hall : ∀ n < 128, (Char.ofNat n).utf8Size = 1 := by decide
  exact hall b.toNat hlt

theorem bearer_subset {header token : String} (h : bearer header = some token) : token.toList ⊆ header.toList := by
  obtain ⟨-, h⟩ := Option.ite_none_right_eq_some.1 h
  rw [← Option.some.inj h, String.toList_ofList]
  exact List.drop_subset _ _

theorem trimText_subset (text : String) : (trimText text).toList ⊆ text.toList := by
  rw [trimText, String.toList_ofList]
  intro c hc
  have hc := (List.dropWhile_sublist _).subset (List.mem_reverse.1 hc)
  exact (List.dropWhile_sublist _).subset (List.mem_reverse.1 hc)

theorem isSome_extractPrefix_of_ascii {key : String} (h : ∀ c ∈ key.toList, c.utf8Size = 1) :
    (extractPrefix key).isSome :=
  isSome_extractPrefix_iff.2 fun _ _ => ByteSlice.not_straddles_of_ascii h

theorem isSome_apiKeyAuth (header : Option (List UInt8)) : (apiKeyAuth header).isSome := by
  unfold apiKeyAuth
  split
  · rfl
  · rename_i text htext
    obtain ⟨bytes, -, htext⟩ := Option.bind_eq_some_iff.1 htext
    split
    · rfl
    · rename_i key hkey
      rw [Option.isSome_map]
      exact isSome_extractPrefix_of_ascii fun c hc => ascii_headerText htext c (bearer_subset hkey hc)

theorem isSome_polymorphicAuth (validToken : String → Bool) (header : List UInt8) :
    (polymorphicAuth validToken header).isSome := by
  unfold polymorphicAuth
  split
  · rfl
  · rename_i text htext
    split
    · rfl
    · rename_i token htoken
      obtain ⟨key, hkey, rfl⟩ := Option.map_eq_some_iff.1 htoken
      split
      · rfl
      · rw [Option.isSome_map]
        refine isSome_extractPrefix_of_ascii fun c hc => ascii_headerText htext c ?_
        exact bearer_subset hkey (trimText_subset key hc)

theorem isSome_logged_iff {α : Type*} {infoEnabled : Bool} {token : String} {line : String → α} {quiet : α} :
    (if infoEnabled then (tokenPrefix token).map line else some quiet).isSome ↔
      (infoEnabled = true → ¬ Straddles 20 token.toList) := by
  split
  · rename_i hinfo
    rw [Option.isSome_map, isSome_tokenPrefix_iff, imp_iff_right hinfo]
  · rename_i hinfo
    exact iff_of_true rfl fun h => absurd h hinfo

theorem isSome_sendPushNotification_iff {infoEnabled : Bool} {notification : PushNotification} :
    (sendPushNotification infoEnabled notification).isSome ↔
      (infoEnabled = true → ¬ Straddles 20 notification.deviceToken.toList) :=
  isSome_logged_iff

theorem isSome_sendNotification_iff {toLowercase : String → String} {infoEnabled : Bool}
    {authKey provided : Option String} {payload : PushRequest} :
    (sendNotification toLowercase infoEnabled authKey provided payload).isSome ↔
      ((authKey = none ∨ provided = authKey) → infoEnabled = true → ¬ Straddles 20 payload.token.toList) := by
  unfold sendNotification
  split
  · rename_i hrefused
    refine iff_of_true rfl fun h => ?_
    rcases h with rfl | h
    · exact absurd hrefused.1 (by decide)
    · exact absurd h hrefused.2
  · rename_i hauth
    have hauth : authKey = none ∨ provided = authKey := by
      rcases authKey with _ | key
      · exact .inl rfl
      · exact .inr (by simpa using hauth)
    rw [imp_iff_right hauth]
    exact isSome_logged_iff

/-- A request panics exactly if it cuts a character. -/
theorem completes_iff (request : Request) : request.completes = true ↔ request.Uncut := by
  rcases request with params | ⟨infoEnabled, notification⟩ | ⟨toLowercase, infoEnabled, authKey, provided, payload⟩ |
    header | ⟨validToken, header⟩ | key
  · exact isSome_truncate_iff
  · exact isSome_sendPushNotification_iff
  · exact isSome_sendNotification_iff
  · exact iff_of_true (isSome_apiKeyAuth header) trivial
  · exact iff_of_true (isSome_polymorphicAuth validToken header) trivial
  · exact isSome_extractPrefix_iff

/-- A template with `truncate "héllo" 2`, and a device token of accented characters behind a letter. -/
theorem accents_cut : (Request.template [.str "héllo", .num 2]).completes = false ∧
    (Request.push true ⟨"xééééééééééé", "android", "high"⟩).completes = false := by
  decide

end BytePrefixes
end Rustchat
