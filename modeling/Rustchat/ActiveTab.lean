import Rustchat.Lib.Json
import Rustchat.Lib.Run

/-!
# One active tab (`composables/useSingleActiveTab.ts`)

Tabs of one browser share the item `rustchat:active_tab` of `localStorage`, which any of them may
overwrite. A handler of a tab can be interrupted by the other tabs between two accesses to the item;
what a tab does from one access up to the next is one step. `ActiveTabs.at_most_one` holds of every
run: whoever believes to be active is named by the item, or is still to be told of a change to it.
-/

namespace Rustchat

namespace SingleActiveTab

structure TabLock where
  id : String
  ts : Int
deriving DecidableEq

/-- `JSON.parse` and `JSON.stringify` of what the item holds. `floor` is the whole milliseconds in a number that is not an
integer, which is all that a comparison with the clock sees of it. What is written of a lock is read back. -/
class JsonText where
  parse : String → Option Json
  floor : Fraction → Int
  stringify : TabLock → String
  parse_empty : parse "" = none
  parse_stringify (lock : TabLock) : ∃ ts, parse (stringify lock) = some (.obj [("id", .str lock.id), ("ts", .num ts)])

section Lock

variable [JsonText]

/-- `typeof v === 'number'` -/
def asNumber : Json → Option Int
  | .num n => some n
  | .frac f => some (JsonText.floor f)
  | _ => none

def safeParseLock (raw : Option String) : Option TabLock :=
  match raw with
  | none | some "" => none
  | some text =>
    (JsonText.parse text).bind fun parsed =>
      match (parsed.get? "id").bind Json.asStr, (parsed.get? "ts").bind asNumber with
      | some id, some ts => some ⟨id, ts⟩
      | _, _ => none

theorem safeParseLock_stringify (lock : TabLock) :
    (safeParseLock (some (JsonText.stringify lock))).map TabLock.id = some lock.id := by
  obtain ⟨ts, hparse⟩ := JsonText.parse_stringify lock
  rw [safeParseLock]
  · rw [hparse]
    rfl
  · intro hempty
    rw [hempty, JsonText.parse_empty] at hparse
    cases hparse

end Lock

def STALE_LOCK_MS : Int := 8000

def isStale (lock : Option TabLock) (now : Int) : Bool :=
  lock.all fun lock => now - lock.ts > STALE_LOCK_MS

structure ChannelMessage where
  type : String
  id : String
  ts : Int

/-- The access a handler that was interrupted makes next. -/
inductive Rest
  | idle
  | startRead
  | startClaim
  | heartbeat
  | claim
  | sync
  | release
  | stopRelease
deriving DecidableEq

/-- A tab with what it has not been told yet: a number of storage events and the messages of its channel,
which is there from the end of `start` to `stop`. -/
structure Tab where
  enabled : Bool
  visible : Bool
  started : Bool
  channel : Bool
  activeTabId : Option String
  lockTimestamp : Int
  rest : Rest
  events : ℕ
  messages : List ChannelMessage

end SingleActiveTab

open SingleActiveTab

/-- The item in `localStorage` and the tabs by their `tabId`s. -/
structure ActiveTabs where
  item : Option String
  tab : String → Tab

inductive TabInput
  | setEnabled (enabled : Bool)
  | setVisible (visible : Bool)
  | start
  | stop
  | heartbeat
  | evaluateLock
  | visibilityChange
  | takeOver
  | pageHide
  | storageEvent
  | channelMessage (n : ℕ)
  | resume

namespace ActiveTabs

variable [JsonText]

/-! ### The parts of the handlers -/

def readLock (s : ActiveTabs) : Option TabLock := safeParseLock s.item

def isActiveTab (s : ActiveTabs) (id : String) : Bool :=
  !(s.tab id).enabled || decide ((s.tab id).activeTabId = some id)

/-- Only the tab `id` changes. -/
def modify (s : ActiveTabs) (id : String) (f : Tab → Tab) : ActiveTabs :=
  { s with tab := Function.update s.tab id (f (s.tab id)) }

/-- `localStorage.setItem` and `localStorage.removeItem`: the other started tabs will hear of it. -/
def setItem (s : ActiveTabs) (id : String) (item : Option String) : ActiveTabs where
  item := item
  tab other := if other ≠ id ∧ (s.tab other).started then { s.tab other with events := (s.tab other).events + 1 } else s.tab other

def postMessage (s : ActiveTabs) (id : String) (message : ChannelMessage) : ActiveTabs :=
  if (s.tab id).channel then
    { s with
      tab := fun other =>
        if other ≠ id ∧ (s.tab other).channel then { s.tab other with messages := (s.tab other).messages ++ [message] }
        else s.tab other }
  else s

def writeLock (s : ActiveTabs) (id : String) (now : Int) : ActiveTabs :=
  (s.setItem id (some (JsonText.stringify ⟨id, now⟩))).modify id fun t =>
    { t with activeTabId := some id, lockTimestamp := now, rest := .idle }

def clearLock (s : ActiveTabs) (id : String) : ActiveTabs :=
  (s.setItem id none).modify id fun t =>
    if t.activeTabId = some id then { t with activeTabId := none, lockTimestamp := 0, rest := .idle }
    else { t with rest := .idle }

def syncFromStorage (s : ActiveTabs) (id : String) : ActiveTabs :=
  s.modify id fun t =>
    { t with activeTabId := s.readLock.map TabLock.id, lockTimestamp := (s.readLock.map TabLock.ts).getD 0, rest := .idle }

def claimActiveTab (s : ActiveTabs) (id : String) (now : Int) : ActiveTabs :=
  if (s.tab id).enabled then (s.writeLock id now).postMessage id ⟨"claim", id, now⟩ else s

def heartbeat (s : ActiveTabs) (id : String) (now : Int) : ActiveTabs :=
  if (s.tab id).enabled && s.isActiveTab id then (s.writeLock id now).postMessage id ⟨"heartbeat", id,
    now⟩ else s

/-- `evaluateLock` up to what it does next with the item. -/
def evaluateLock (s : ActiveTabs) (id : String) (now : Int) : ActiveTabs :=
  if (s.tab id).enabled then
    s.modify id fun t =>
      { t with
        rest := if s.isActiveTab id then .heartbeat else if t.visible && isStale s.readLock now then .claim else .sync }
  else s

/-- `start` without its claim: the channel is opened. -/
def finishStart (broadcast : Bool) (s : ActiveTabs) (id : String) : ActiveTabs :=
  s.modify id fun t => { t with channel := broadcast, rest := .idle }

def onChannelMessage (s : ActiveTabs) (id : String) (message : ChannelMessage) : ActiveTabs :=
  s.modify id fun t => { t with activeTabId := some message.id, lockTimestamp := message.ts }

/-- What is left of a handler, up to the access after the next. -/
def resume (broadcast : Bool) (s : ActiveTabs) (id : String) (now : Int) : Option ActiveTabs :=
  match (s.tab id).rest with
  | .idle => none
  | .startRead =>
    if (s.tab id).visible && isStale s.readLock now && (s.tab id).enabled then
      some (s.modify id fun t => { t with rest := .startClaim })
    else some (s.finishStart broadcast id)
  | .startClaim => some ((s.writeLock id now).finishStart broadcast id)
  | .heartbeat => some ((s.writeLock id now).postMessage id ⟨"heartbeat", id, now⟩)
  | .claim => some ((s.writeLock id now).postMessage id ⟨"claim", id, now⟩)
  | .sync => some (s.syncFromStorage id)
  | .release => some ((s.clearLock id).postMessage id ⟨"release", id, now⟩)
  | .stopRelease => some ((s.clearLock id).modify id fun t => { t with activeTabId := none, lockTimestamp := 0 })

/-- The handlers, up to the access after the first. Timers and listeners are there while a tab is started; events
and messages come in any order. -/
def handle (s : ActiveTabs) (id : String) (now : Int) : TabInput → Option ActiveTabs
  | .setEnabled enabled => some (s.modify id fun t => { t with enabled := enabled })
  | .setVisible visible => some (s.modify id fun t => { t with visible := visible })
  | .start =>
    if (s.tab id).started then some s
    else some ((s.syncFromStorage id).modify id fun t => { t with started := true, rest := .startRead })
  | .stop =>
    if (s.tab id).started then
      if s.readLock.any fun lock => lock.id = id then
        some (s.modify id fun t => { t with started := false, channel := false, messages := [], rest := .stopRelease })
      else
        some (s.modify id fun t =>
          { t with started := false, channel := false, messages := [], activeTabId := none, lockTimestamp := 0 })
    else some s
  | .heartbeat => if (s.tab id).started then some (s.heartbeat id now) else none
  | .evaluateLock => if (s.tab id).started then some (s.evaluateLock id now) else none
  | .visibilityChange =>
    if (s.tab id).started then some (if (s.tab id).visible then s.evaluateLock id now else s) else none
  | .takeOver => some (s.claimActiveTab id now)
  | .pageHide =>
    if (s.tab id).started then
      some (if s.readLock.any fun lock => lock.id = id then s.modify id fun t => { t with rest := .release } else s)
    else none
  | .storageEvent =>
    if 0 < (s.tab id).events then
      if (s.tab id).started then some ((s.syncFromStorage id).modify id fun t => { t with events := t.events - 1 })
      else some (s.modify id fun t => { t with events := t.events - 1 })
    else none
  | .channelMessage n =>
    (s.tab id).messages[n]?.map fun message =>
      (s.onChannelMessage id message).modify id fun t => { t with messages := t.messages.eraseIdx n }
  | .resume => none

/-- A tab takes a handler up when it has none to finish. `broadcast` says whether the browser has
`BroadcastChannel`. -/
def step (broadcast : Bool) (s : ActiveTabs) : String × Int × TabInput → Option ActiveTabs
  | (id, now, input) =>
    if (s.tab id).rest = .idle then s.handle id now input
    else match input with
      | .resume => s.resume broadcast id now
      | _ => none

/-- Any tabs, none of them started, and whatever the item holds. -/
def init (item : Option String) (enabled visible : String → Bool) : ActiveTabs where
  item := item
  tab id := ⟨enabled id, visible id, false, false, none, 0, .idle, 0, []⟩

/-- Nothing is undelivered. -/
def Quiet (s : ActiveTabs) : Prop :=
  ∀ id, (s.tab id).started → (s.tab id).events = 0 ∧ (s.tab id).messages = []

/-- A started, enabled tab that believes to be the active one. -/
def Active (s : ActiveTabs) (id : String) : Prop := (s.tab id).started ∧ (s.tab id).enabled ∧ s.isActiveTab id

/-- A started tab that believes to be active is named by the item, or will hear of a change. No message says
to a tab that it is active. -/
structure Sound (s : ActiveTabs) : Prop where
  named (id : String) (hs : (s.tab id).started = true) (ha : (s.tab id).activeTabId = some id) :
    s.readLock.map TabLock.id = some id ∨ 0 < (s.tab id).events
  foreign (id : String) (m : ChannelMessage) (hm : m ∈ (s.tab id).messages) : m.id ≠ id

variable {s s' : ActiveTabs} {id : String} {now : Int} {f : Tab → Tab} {broadcast : Bool}

omit [JsonText] in
theorem tab_modify : (s.modify id f).tab id = f (s.tab id) := Function.update_self ..

theorem sound_init (item : Option String) (enabled visible : String → Bool) :
    (init item enabled visible).Sound := by
  constructor
  · intro id hs
    cases hs
  · intro id m hm
    cases hm

theorem Sound.modify (h : s.Sound)
    (hnamed : (f (s.tab id)).started = true → (f (s.tab id)).activeTabId = some id →
      s.readLock.map TabLock.id = some id ∨ 0 < (f (s.tab id)).events)
    (hmessages : ∀ m ∈ (f (s.tab id)).messages, m.id ≠ id) : (s.modify id f).Sound where
  named other hs ha := by
    by_cases hne : other = id
    · subst hne
      rw [tab_modify] at hs ha ⊢
      exact hnamed hs ha
    · have htab : (s.modify id f).tab other = s.tab other := Function.update_of_ne hne ..
      rw [htab] at hs ha ⊢
      exact h.named other hs ha
  foreign other m hm := by
    by_cases hne : other = id
    · subst hne
      rw [tab_modify] at hm
      exact hmessages m hm
    · have htab : (s.modify id f).tab other = s.tab other := Function.update_of_ne hne ..
      rw [htab] at hm
      exact h.foreign other m hm

theorem Sound.modify_same (h : s.Sound) (hs : (f (s.tab id)).started = true → (s.tab id).started = true)
    (ha : (f (s.tab id)).activeTabId = (s.tab id).activeTabId)
    (he : (f (s.tab id)).events = (s.tab id).events)
    (hm : (f (s.tab id)).messages = (s.tab id).messages) : (s.modify id f).Sound := by
  refine h.modify (fun hs' ha' => ?_) (fun m hmem => h.foreign id m (hm ▸ hmem))
  rw [he]
  exact h.named id (hs hs') (ha ▸ ha')

theorem Sound.write {item : Option String} (h : s.Sound)
    (hnamed : (f (s.tab id)).started = true → (f (s.tab id)).activeTabId = some id →
      (safeParseLock item).map TabLock.id = some id)
    (hmessages : (f (s.tab id)).messages = (s.tab id).messages) :
    ((s.setItem id item).modify id f).Sound where
  named other hs ha := by
    have htab : (s.setItem id item).tab id = s.tab id := if_neg fun h => h.1 rfl
    by_cases hne : other = id
    · subst hne
      rw [tab_modify, htab] at hs ha
      exact .inl (hnamed hs ha)
    · have htab' : ((s.setItem id item).modify id f).tab other = (s.setItem id item).tab other :=
        Function.update_of_ne hne ..
      have hstarted : (s.tab other).started = true := by
        rw [htab', setItem] at hs
        dsimp only at hs
        split at hs <;> exact hs
      right
      rw [htab', setItem]
      simp [hne, hstarted]
  foreign other m hm := by
    have htab : (s.setItem id item).tab id = s.tab id := if_neg fun h => h.1 rfl
    by_cases hne : other = id
    · subst hne
      rw [tab_modify, htab, hmessages] at hm
      exact h.foreign other m hm
    · have htab' : ((s.setItem id item).modify id f).tab other = (s.setItem id item).tab other :=
        Function.update_of_ne hne ..
      rw [htab', setItem] at hm
      refine h.foreign other m ?_
      dsimp only at hm
      split at hm <;> exact hm

theorem Sound.postMessage {message : ChannelMessage} (h : s.Sound) (hid : message.id = id) :
    (s.postMessage id message).Sound := by
  rw [ActiveTabs.postMessage]
  split
  · constructor
    · intro other hs ha
      dsimp only at hs ha ⊢
      by_cases hother : other ≠ id ∧ (s.tab other).channel = true
      · rw [if_pos hother] at hs ha ⊢
        exact h.named other hs ha
      · rw [if_neg hother] at hs ha ⊢
        exact h.named other hs ha
    · intro other m hm
      dsimp only at hm
      split at hm
      · rename_i hother
        rcases List.mem_append.1 hm with hm | hm
        · exact h.foreign other m hm
        · rw [List.mem_singleton.1 hm, hid]
          exact hother.1.symm
      · exact h.foreign other m hm
  · exact h

theorem Sound.writeLock (h : s.Sound) : (s.writeLock id now).Sound := by
  refine h.write (fun _ _ => ?_) rfl
  exact safeParseLock_stringify _

theorem Sound.clearLock (h : s.Sound) : (s.clearLock id).Sound := by
  refine h.write (fun _ ha => ?_) (by split <;> rfl)
  split at ha
  · cases ha
  · rename_i hne
    exact absurd ha hne

theorem Sound.syncFromStorage (h : s.Sound) : (s.syncFromStorage id).Sound :=
  h.modify (fun _ ha => .inl ha) fun m hm => h.foreign id m hm

theorem Sound.syncFromStorage_modify (h : s.Sound)
    (ha : (f ((s.syncFromStorage id).tab id)).activeTabId = ((s.syncFromStorage id).tab id).activeTabId)
    (hm : (f ((s.syncFromStorage id).tab id)).messages = ((s.syncFromStorage id).tab id).messages) :
    ((s.syncFromStorage id).modify id f).Sound := by
  refine h.syncFromStorage.modify (fun _ ha' => .inl ?_) fun m hmem => h.syncFromStorage.foreign id m (hm ▸ hmem)
  rw [ha, ActiveTabs.syncFromStorage, tab_modify] at ha'
  exact ha'

theorem Sound.evaluateLock (h : s.Sound) : (s.evaluateLock id now).Sound := by
  rw [ActiveTabs.evaluateLock]
  split
  · exact h.modify_same (fun hs => hs) rfl rfl rfl
  · exact h

theorem Sound.finishStart (h : s.Sound) : (s.finishStart broadcast id).Sound :=
  h.modify_same (fun hs => hs) rfl rfl rfl

theorem Sound.resume (h : s.Sound) (hs : s.resume broadcast id now = some s') : s'.Sound := by
  unfold ActiveTabs.resume at hs
  split at hs
  · cases hs
  · split at hs
    · cases hs
      exact h.modify_same (fun hs => hs) rfl rfl rfl
    · cases hs
      exact h.finishStart
  · cases hs
    exact h.writeLock.finishStart
  · cases hs
    exact h.writeLock.postMessage rfl
  · cases hs
    exact h.writeLock.postMessage rfl
  · cases hs
    exact h.syncFromStorage
  · cases hs
    exact h.clearLock.postMessage rfl
  · cases hs
    exact h.clearLock.modify (fun _ ha => by cases ha) fun m hm => h.clearLock.foreign id m hm

theorem Sound.onChannelMessage {message : ChannelMessage} (h : s.Sound) (hid : message.id ≠ id) :
    (s.onChannelMessage id message).Sound :=
  h.modify (fun _ ha => absurd (Option.some.inj ha) hid) fun m hm => h.foreign id m hm

theorem Sound.handle {input : TabInput} (h : s.Sound) (hs : s.handle id now input = some s') : s'.Sound := by
  cases input with
  | setEnabled enabled | setVisible visible =>
    cases hs
    exact h.modify_same (fun hs => hs) rfl rfl rfl
  | start =>
    simp only [ActiveTabs.handle] at hs
    split at hs
    · cases hs
      exact h
    · cases hs
      exact h.syncFromStorage_modify rfl rfl
  | stop =>
    simp only [ActiveTabs.handle] at hs
    split at hs
    · split at hs
      · cases hs
        exact h.modify (fun hs => by cases hs) fun m hm => by cases hm
      · cases hs
        exact h.modify (fun hs => by cases hs) fun m hm => by cases hm
    · cases hs
      exact h
  | heartbeat =>
    simp only [ActiveTabs.handle, ActiveTabs.heartbeat] at hs
    split at hs
    · cases hs
      split
      · exact h.writeLock.postMessage rfl
      · exact h
    · cases hs
  | evaluateLock =>
    simp only [ActiveTabs.handle] at hs
    split at hs
    · cases hs
      exact h.evaluateLock
    · cases hs
  | visibilityChange =>
    simp only [ActiveTabs.handle] at hs
    split at hs
    · cases hs
      split
      · exact h.evaluateLock
      · exact h
    · cases hs
  | takeOver =>
    cases hs
    rw [ActiveTabs.claimActiveTab]
    split
    · exact h.writeLock.postMessage rfl
    · exact h
  | pageHide =>
    simp only [ActiveTabs.handle] at hs
    split at hs
    · cases hs
      split
      · exact h.modify_same (fun hs => hs) rfl rfl rfl
      · exact h
    · cases hs
  | storageEvent =>
    simp only [ActiveTabs.handle] at hs
    split at hs
    · split at hs
      · cases hs
        exact h.syncFromStorage_modify rfl rfl
      · rename_i hstopped
        cases hs
        exact h.modify (fun hs => absurd hs hstopped) fun m hm => h.foreign id m hm
    · cases hs
  | channelMessage n =>
    obtain ⟨message, hmessage, rfl⟩ := Option.map_eq_some_iff.1 hs
    have hid := h.foreign id message (List.mem_of_getElem? hmessage)
    have hm := h.onChannelMessage hid
    refine hm.modify (fun hs ha => hm.named id hs ha) fun m hm' => hm.foreign id m ?_
    exact List.mem_of_mem_eraseIdx hm'
  | resume => cases hs

theorem Sound.step {input : String × Int × TabInput} (h : s.Sound)
    (hs : s.step broadcast input = some s') : s'.Sound := by
  obtain ⟨id, now, input⟩ := input
  simp only [ActiveTabs.step] at hs
  split at hs
  · exact h.handle hs
  · split at hs
    · exact h.resume hs
    · cases hs

theorem active_unique (h : s.Sound) (hq : s.Quiet) {a b : String} (ha : s.Active a) (hb : s.Active b) :
    a = b := by
  have hnamed : ∀ c, s.Active c → s.readLock.map TabLock.id = some c := by
    rintro c ⟨hs, he, hc⟩
    have hid : (s.tab c).activeTabId = some c := by simpa [isActiveTab, he] using hc
    have hzero := (hq c hs).1
    have hpos := h.named c hs hid
    exact hpos.resolve_right (by omega)
  exact Option.some.inj ((hnamed a ha).symm.trans (hnamed b hb))

/-- In every state of every run without an undelivered event or message at most one started, enabled tab
believes to be the active one. -/
theorem at_most_one (broadcast : Bool) (item : Option String) (enabled visible : String → Bool)
    (inputs : List (String × Int × TabInput)) :
    Run.AllStates (step broadcast) (fun s => s.Quiet → ∀ a b, s.Active a → s.Active b → a = b)
      (init item enabled visible) inputs := by
  have hinv : ∀ s input s', Sound s → s.step broadcast input = some s' → Sound s' :=
    fun _ _ _ h hs => h.step hs
  exact (Run.invariant hinv (sound_init item enabled visible)).mono fun s h hq a b ha hb => active_unique h hq ha hb

abbrev integers : JsonText where
  parse := Json.parse
  floor _ := 0
  stringify lock := (Json.obj [("id", .str lock.id), ("ts", .num lock.ts)]).render
  parse_empty := rfl
  parse_stringify lock := ⟨lock.ts, Json.parse_render _⟩

/-- Tab `a` starts and claims the item, `b` starts and takes over, and `a` hears of it. -/
example : letI := integers
    (Run.exec (step true) (init none (fun _ => true) fun _ => true)
        [("a", 10, .start), ("a", 10, .resume), ("a", 10, .resume), ("b", 20, .start), ("b", 20, .resume), ("b", 30, .takeOver),
          ("a", 40, .channelMessage 0), ("a", 40, .storageEvent)]).map
      (fun s => ((s.isActiveTab "a", (s.tab "a").events), (s.isActiveTab "b", (s.tab "b").events))) =
      some ((false, 0), (true, 0)) := by
  decide +kernel

end ActiveTabs

end Rustchat
