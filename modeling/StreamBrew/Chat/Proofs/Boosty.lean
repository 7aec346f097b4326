/-
Polling a Boosty chat emits each message once and in order.

The chat is a feed of messages whose seconds do not decrease, and the
pages of a poll are a walk over it without gaps, whatever is written to
the chat in the meantime. After a successful poll the cursor knows two
positions (`Known`): the one behind the last identifier, which is where
a walk stops at the latest, and the one behind the last message that was
observed. A walk that stops between the two shows some messages again,
and the high-water mark takes none of them twice.

A poll that fails changes neither the cursor nor what was emitted: both
change only with the number of successful polls (`run_quiet`).
-/
import StreamBrew.Lib.Feed
import StreamBrew.Chat.Boosty

namespace StreamBrew.Chat.Boosty

open Feed

variable {source : StreamSource} {plain : String → Option String}
  {T : List BoostyMessage} {c : Cursor} {s : System} {poll : Poll}

-- =============================== definitions

/-- The messages that were emitted. -/
def System.emitted (s : System) : List Message := messages s.collector.events

/-- Every message has an identifier. -/
def Named (T : List BoostyMessage) : Prop := ∀ m ∈ T, m.id ≠ ""

/-- The chat is ordered by creation time, with identifiers of its own. -/
abbrev Chronological (T : List BoostyMessage) : Prop :=
  Ordered BoostyMessage.id BoostyMessage.createdAt 0 T

/-- What a cursor remembers of the messages that were read. -/
def Cursor.mark (c : Cursor) : Mark String Int :=
  { highWater := c.highWater, seen := c.seen }

/-- The mark is that of the messages from one place to another. -/
abbrev Observed (T : List BoostyMessage) (low m : Nat)
    (mark : Mark String Int) :
    Prop :=
  Marks BoostyMessage.id BoostyMessage.createdAt 0 T low m mark

/-- The identifier of the message before a position. -/
def idBefore (T : List BoostyMessage) : Nat → String
  | 0 => ""
  | n + 1 => (T[n]?.map BoostyMessage.id).getD ""

/-- The cursor stands behind `low` by its identifier, and behind `m` by
its mark. -/
structure Known (T : List BoostyMessage) (c : Cursor) (low m : Nat) :
    Prop where
  le : low ≤ m
  last : c.lastID = idBefore T low
  marks : Observed T low m c.mark

-- ================================= observing

/-- The loop over the messages is that of a feed. -/
theorem observe_eq (normalize : BoostyMessage → Option Message)
    (c : Cursor) (raw : BoostyMessage) :
    c.observe normalize raw
      = let (mark, new) := c.mark.observe BoostyMessage.id
          BoostyMessage.createdAt raw
        ({ c with highWater := mark.highWater, seen := mark.seen },
          if c.initialized then
            (new.filterMap normalize).map StreamEvent.ofMessage
          else []) := by
  have hone : (normalize raw).toList = [raw].filterMap normalize := by
    cases h : normalize raw <;> simp [h]
  by_cases hold : raw.createdAt < c.highWater ∨ raw.id ∈ c.seen
  · have hmark : c.mark.observe BoostyMessage.id BoostyMessage.createdAt raw
        = (c.mark, []) := if_pos hold
    rw [hmark, Cursor.observe, if_pos hold]
    simp [Cursor.mark]
  · by_cases hahead : c.highWater < raw.createdAt
    · have hmark : c.mark.observe BoostyMessage.id BoostyMessage.createdAt raw
          = ({ highWater := raw.createdAt, seen := [raw.id] }, [raw]) :=
        (if_neg hold).trans (if_pos hahead)
      rw [hmark, Cursor.observe, if_neg hold, if_pos hahead, hone]
    · have hmark : c.mark.observe BoostyMessage.id BoostyMessage.createdAt raw
          = ({ highWater := c.highWater, seen := raw.id :: c.seen }, [raw]) :=
        (if_neg hold).trans (if_neg hahead)
      rw [hmark, Cursor.observe, if_neg hold, if_neg hahead, hone]

theorem observeAll_eq (normalize : BoostyMessage → Option Message)
    (c : Cursor) (items : List BoostyMessage) :
    c.observeAll normalize items
      = let (mark, new) := c.mark.observeAll BoostyMessage.id
          BoostyMessage.createdAt items
        ({ c with highWater := mark.highWater, seen := mark.seen },
          if c.initialized then
            (new.filterMap normalize).map StreamEvent.ofMessage
          else []) := by
  induction items generalizing c with
  | nil => simp [Cursor.observeAll, Mark.observeAll, Cursor.mark]
  | cons raw rest ih =>
      simp only [Cursor.observeAll, Mark.observeAll, observe_eq, ih]
      cases c.initialized <;> simp [Cursor.mark]

theorem messages_append (before after : List StreamEvent) :
    messages (before ++ after) = messages before ++ messages after :=
  List.filterMap_append ..

theorem messages_ofMessage (l : List Message) :
    messages (l.map StreamEvent.ofMessage) = l := by
  unfold messages
  rw [List.filterMap_map]
  exact List.filterMap_some

-- ================================== scanning

/-- The scan of a page goes on where it is known to stop. -/
theorem scan_eq (c : Cursor) (poll : Poll) (data : List BoostyMessage)
    (hnamed : Named data) :
    poll.scan c data
      = ({ poll with
            messages := poll.messages
              ++ data.takeWhile fun m => ¬ c.Stops m
            newest := if poll.newest = "" then
              ((data.head?.map BoostyMessage.id).getD "") else poll.newest },
          !data.all fun m => ¬ c.Stops m) := by
  induction data generalizing poll with
  | nil =>
      obtain ⟨messages, newest, offset, pageIndex⟩ := poll
      by_cases h : newest = "" <;> simp [Poll.scan, h]
  | cons m rest ih =>
      have hm : m.id ≠ "" := hnamed m List.mem_cons_self
      have hrest : Named rest :=
        fun m hm => hnamed m (List.mem_cons_of_mem _ hm)
      by_cases hstops : c.Stops m
      · by_cases h : poll.newest = "" <;> simp [Poll.scan, hstops, h]
      · by_cases h : poll.newest = "" <;>
          simp [Poll.scan, hstops, h, hm, ih _ hrest]

-- =================================== walking

theorem idBefore_succ {n : Nat} (hn : n < T.length) :
    idBefore T (n + 1) = T[n].id := by
  simp [idBefore, List.getElem?_eq_getElem hn]

theorem idBefore_eq_empty (hnamed : Named T) {n : Nat} (hn : n ≤ T.length)
    (h : idBefore T n = "") : n = 0 := by
  cases n with
  | zero => rfl
  | succ n =>
      rw [idBefore_succ hn] at h
      exact absurd h (hnamed _ (List.getElem_mem hn))

theorem idBefore_grow {rest : List BoostyMessage} {n : Nat}
    (hn : n ≤ T.length) : idBefore (T ++ rest) n = idBefore T n := by
  cases n with
  | zero => rfl
  | succ n =>
      have hlt : n < (T ++ rest).length := by
        rw [List.length_append]
        omega
      rw [idBefore_succ hlt, idBefore_succ hn, List.getElem_append_left]

/-- A walk stops at a message that was observed. -/
theorem lt_of_stops {low m : Nat} (hT : Chronological T)
    (h : Known T c low m) {i : Nat} (hi : i < T.length) (hlow : low ≤ i)
    (hstops : c.Stops T[i]) : i < m := by
  rcases hstops with ⟨hne, hid⟩ | ⟨-, -, hold⟩
  · -- the last identifier is that of an older message
    rw [h.last] at hne hid
    cases low with
    | zero => exact absurd rfl hne
    | succ n =>
        have hn : n < T.length := by omega
        rw [idBefore_succ hn] at hid
        have := index_of_key hT.distinct hi hn hid
        omega
  · by_contra hm
    have habove := h.marks.above hT hi (Nat.not_lt.mp hm)
    exact absurd hold (not_lt.mpr habove)

/-- It stops at the last identifier. -/
theorem stops_last {low m : Nat} (hnamed : Named T) (h : Known T c low m)
    {i : Nat} (hi : i < T.length) (hlow : i + 1 = low) : c.Stops T[i] := by
  have hlast : c.lastID = T[i].id := by
    rw [h.last, ← hlow, idBefore_succ hi]
  exact .inl ⟨hlast ▸ hnamed _ (List.getElem_mem hi), hlast.symm⟩

/-- A poll on its way back: what it has collected is a walk from `head`
or later, and it met nothing that stops it. -/
structure Backwards (T : List BoostyMessage) (c : Cursor)
    (older low m head : Nat) (poll : Poll) : Prop where
  low : low ≤ older
  observed : m ≤ head
  le : head ≤ T.length
  quiet : ∀ i, older ≤ i → (hi : i < T.length) → ¬ c.Stops T[i]
  walk : ∃ top, head ≤ top ∧ Walk T older poll.messages.reverse top
  newest : poll.newest = idBefore T head ∧ poll.newest ≠ ""
    ∨ poll.newest = "" ∧ older = T.length ∧ head = T.length

/-- A poll that begins. -/
theorem backwards_first {low m : Nat} (h : Known T c low m) :
    Backwards T c T.length low m T.length {} where
  low := Nat.le_trans h.le h.marks.le
  observed := h.marks.le
  le := Nat.le_refl _
  quiet _ hle hi := absurd hi (Nat.not_lt.mpr hle)
  walk := ⟨T.length, Nat.le_refl _, .start _⟩
  newest := .inr ⟨rfl, rfl, rfl⟩

/-- The chat may grow meanwhile. -/
theorem Backwards.grow {older low m head : Nat} {message : BoostyMessage}
    (h : Backwards T c older low m head poll)
    (hT : Chronological (T ++ [message])) (hnamed : poll.newest ≠ "")
    (hknown : Known (T ++ [message]) c low m) :
    Backwards (T ++ [message]) c older low m head poll where
  low := h.low
  observed := h.observed
  le := by
    rw [List.length_append]
    exact Nat.le_add_right_of_le h.le
  quiet i hle hi hstops := by
    rcases Nat.lt_or_ge i T.length with hlt | hge
    · rw [List.getElem_append_left hlt] at hstops
      exact h.quiet i hle hlt hstops
    · have hm := lt_of_stops hT hknown hi (Nat.le_trans h.low hle) hstops
      have := h.observed
      have := h.le
      omega
  walk := by
    obtain ⟨top, htop, hwalk⟩ := h.walk
    exact ⟨top, htop, hwalk.grow _⟩
  newest := by
    rcases h.newest with ⟨heq, hne⟩ | ⟨hempty, -, -⟩
    · exact .inl ⟨by rw [heq, idBefore_grow h.le], hne⟩
    · exact absurd hempty hnamed

/-- The newest message of a poll, from its first page on. -/
theorem Backwards.newest_eq {older low m head a b : Nat}
    (h : Backwards T c older low m head poll) (ha : a ≤ older)
    (holder : older ≤ b) (hb : b ≤ T.length) (hempty : a = b → a = 0) :
    (if poll.newest = "" then
      ((slice T a b).reverse.head?.map BoostyMessage.id).getD ""
      else poll.newest) = idBefore T head := by
  rcases h.newest with ⟨heq, hne⟩ | ⟨hnone, hall, hhead⟩
  · rw [if_neg hne, heq]
  · rw [if_pos hnone]
    obtain rfl : b = T.length := by omega
    rw [hhead]
    rcases Nat.lt_or_ge a T.length with hlt | hge
    · obtain ⟨n, hn⟩ := Nat.exists_eq_succ_of_ne_zero
        (show T.length ≠ 0 by omega)
      have hsnoc := slice_snoc (l := T) (a := a) (b := n) (by omega)
        (by omega)
      rw [hn, hsnoc, List.reverse_concat, idBefore_succ (by omega)]
      rfl
    · rw [slice_of_le hge]
      rw [show T.length = 0 by omega]
      rfl

theorem named_slice (hnamed : Named T) (a b : Nat) :
    Named (slice T a b).reverse := by
  intro m hm
  obtain ⟨i, hi, -, -, rfl⟩ := mem_slice.mp (List.mem_reverse.mp hm)
  exact hnamed _ (List.getElem_mem hi)

/-- What a block adds to a poll: the part of it that reaches back to
where the walk stops. -/
theorem scan_block {older low m head a b : Nat} (hT : Chronological T)
    (hnamed : Named T) (hknown : Known T c low m)
    (h : Backwards T c older low m head poll) (ha : a ≤ older)
    (hb : older ≤ b) (hlen : b ≤ T.length) (hempty : a = b → a = 0) :
    ∃ k stopped, poll.scan c (slice T a b).reverse
        = ({ poll with
              messages := poll.messages ++ (slice T k b).reverse
              newest := idBefore T head }, stopped)
      ∧ a ≤ k ∧ low ≤ k ∧ k ≤ older
      ∧ (stopped = true ∧ k ≤ m ∨ stopped = false ∧ k = a
        ∧ ∀ i, a ≤ i → (hi : i < T.length) → ¬ c.Stops T[i]) := by
  obtain ⟨k, hak, hkb, htake, hall, hend⟩ := takeWhile_slice
    (fun m : BoostyMessage => decide (¬ c.Stops m)) (Nat.le_trans ha hb) hlen
  have hquiet : ∀ i, k ≤ i → i < b → (hi : i < T.length) →
      ¬ c.Stops T[i] := fun i hki hib hi =>
    of_decide_eq_true (hall _ (mem_slice.mpr ⟨i, hi, hki, hib, rfl⟩))
  have hlow : low ≤ k := by
    by_contra hk
    have hlt : low - 1 < T.length := by
      have := h.low
      omega
    have := h.low
    exact hquiet (low - 1) (by omega) (by omega) hlt
      (stops_last hnamed hknown hlt (by omega))
  have hnewest := h.newest_eq ha hb hlen hempty
  refine ⟨k, !(slice T a b).reverse.all fun m => ¬ c.Stops m, ?_, hak, hlow,
    ?_, ?_⟩
  · rw [scan_eq c poll _ (named_slice hnamed a b), htake, hnewest]
  · rcases hend with ⟨rfl, -⟩ | ⟨hlt, -, hi, hstops⟩
    · exact ha
    · -- what stops here was not read before
      by_contra hk
      exact h.quiet (k - 1) (by omega) hi (by simpa using hstops)
  · rcases hend with ⟨rfl, hnone⟩ | ⟨hlt, hsome, hi, hstops⟩
    · refine .inr ⟨by rw [hnone]; rfl, rfl, fun i hki hi => ?_⟩
      rcases Nat.lt_or_ge i b with hib | hib
      · exact hquiet i hki hib hi
      · exact h.quiet i (Nat.le_trans hb hib) hi
    · refine .inl ⟨by rw [hsome]; rfl, ?_⟩
      have hstops : c.Stops T[k - 1] := by simpa using hstops
      rcases Nat.lt_or_ge (k - 1) low with hkl | hkl
      · have := hknown.le
        omega
      · have := lt_of_stops hT hknown hi hkl hstops
        omega

/-- The walk behind a poll, with a block read. -/
theorem walk_block {older k b top : Nat} {messages : List BoostyMessage}
    (h : Walk T older messages.reverse top) (hk : k ≤ older) (hb : older ≤ b)
    (hlen : b ≤ T.length) :
    Walk T k (messages ++ (slice T k b).reverse).reverse (max b top) := by
  rw [List.reverse_append, List.reverse_reverse]
  exact .block h hk hb hlen

section Block

variable {older low m head a b : Nat} {extra : ChatExtra}
  (hT : Chronological T) (hnamed : Named T) (hknown : Known T c low m)
  (h : Backwards T c older low m head poll) (ha : a ≤ older)
  (hb : older ≤ b) (hlen : b ≤ T.length) (hempty : a = b → a = 0)
  (hinit : c.initialized = true)

include hT hnamed hknown h ha hb hlen hempty hinit

/-- A poll that ends has walked back to where it stops. -/
theorem read_done (hlast : extra.isLast = true → a = 0)
    {messages : List BoostyMessage} {newest : String}
    (hdone : poll.read c (slice T a b).reverse extra
      = .done messages newest) :
    newest = idBefore T head ∧ ∃ k top, low ≤ k ∧ k ≤ m ∧ head ≤ top
      ∧ Walk T k messages.reverse top := by
  obtain ⟨k, stopped, hscan, hak, hlow, hk, hcase⟩ :=
    scan_block hT hnamed hknown h ha hb hlen hempty
  obtain ⟨top, htop, hwalk⟩ := h.walk
  have hblock := walk_block hwalk hk hb hlen
  unfold Poll.read at hdone
  rw [hscan] at hdone
  simp only at hdone
  have hle : k ≤ m ∧ (newest = idBefore T head
      ∧ messages = poll.messages ++ (slice T k b).reverse) := by
    split at hdone
    case isTrue hstopped =>
      cases hdone
      rcases hcase with ⟨-, hkm⟩ | ⟨hnot, -⟩
      · exact ⟨hkm, rfl, rfl⟩
      · rw [hnot] at hstopped
        cases hstopped
    case isFalse hnot =>
      rcases hcase with ⟨hyes, -⟩ | ⟨-, hka, -⟩
      · exact absurd hyes hnot
      · split at hdone
        case isTrue hover =>
          cases hdone
          have hzero : a = 0 := by
            rw [hinit] at hover
            simp only [Bool.not_true, Bool.false_or, Bool.or_eq_true,
              List.isEmpty_reverse, List.isEmpty_iff] at hover
            rcases hover with hover | hover
            · exact hlast hover
            · have hlength := congrArg List.length hover
              rw [length_slice] at hlength
              exact hempty (by simp at hlength; omega)
          exact ⟨by omega, rfl, rfl⟩
        case isFalse =>
          split at hdone
          case isTrue => cases hdone
          case isFalse => split at hdone <;> cases hdone
  obtain ⟨hkm, rfl, rfl⟩ := hle
  exact ⟨rfl, k, max b top, hlow, hkm, by omega, hblock⟩

omit hinit in
/-- A poll that goes on. -/
theorem read_more {poll' : Poll}
    (hmore : poll.read c (slice T a b).reverse extra = .more poll') :
    Backwards T c a low m head poll' ∧ poll'.newest ≠ ""
      ∧ poll'.pageIndex ≠ 0 := by
  obtain ⟨k, stopped, hscan, hak, hlow, hk, hcase⟩ :=
    scan_block hT hnamed hknown h ha hb hlen hempty
  obtain ⟨top, htop, hwalk⟩ := h.walk
  have hblock := walk_block hwalk hk hb hlen
  unfold Poll.read at hmore
  rw [hscan] at hmore
  simp only at hmore
  split at hmore
  case isTrue => cases hmore
  case isFalse hnot =>
    rcases hcase with ⟨hyes, -⟩ | ⟨-, rfl, hquiet⟩
    · exact absurd hyes hnot
    · split at hmore
      case isTrue => cases hmore
      case isFalse hover =>
        split at hmore
        case isTrue => cases hmore
        case isFalse =>
          split at hmore
          case isTrue => cases hmore
          case isFalse =>
            cases hmore
            have hhead : idBefore T head ≠ "" := by
              intro hnone
              have hzero := idBefore_eq_empty hnamed h.le hnone
              rcases h.newest with ⟨heq, hne⟩ | ⟨-, hall, hlen'⟩
              · exact hne (heq.trans hnone)
              · -- the chat is empty, and so is the page
                refine hover ?_
                rw [slice_of_le (by omega : b ≤ k)]
                simp
            exact ⟨⟨hlow, h.observed, h.le, hquiet,
              ⟨max b top, by omega, hblock⟩, .inl ⟨rfl, hhead⟩⟩, hhead,
              Nat.succ_ne_zero _⟩

end Block

-- ================================ publishing

/-- A first poll shows the end of the chat, and takes all of it as
known. -/
theorem observe_first (hT : Chronological T) {a : Nat} (ha : a ≤ T.length)
    (normalize : BoostyMessage → Option Message) :
    (Cursor.observeAll normalize {} (slice T a T.length)).2 = []
      ∧ Observed T T.length T.length
        (Cursor.observeAll normalize {} (slice T a T.length)).1.mark := by
  have horigin : Marks BoostyMessage.id BoostyMessage.createdAt 0 T a a
      { highWater := 0, seen := [] } := marks_origin ha
  obtain ⟨-, hmarks⟩ := observe_slice horigin hT (Nat.le_refl a)
    (Nat.le_refl a) (Nat.le_refl T.length)
  rw [observeAll_eq]
  refine ⟨rfl, ?_⟩
  rw [Nat.max_eq_right ha] at hmarks
  exact hmarks.weaken ha

/-- A later poll takes what has not been observed. -/
theorem observe_later {low m head k top : Nat} {items : List BoostyMessage}
    (hT : Chronological T) (hknown : Known T c low m)
    (hinit : c.initialized = true) (hk : low ≤ k) (hkm : k ≤ m)
    (hm : m ≤ head) (hhead : head ≤ top) (hwalk : Walk T k items top)
    (normalize : BoostyMessage → Option Message) :
    messages (c.observeAll normalize items).2
        = (slice T m top).filterMap normalize
      ∧ Observed T head top (c.observeAll normalize items).1.mark
      ∧ (c.observeAll normalize items).1.lastID = c.lastID := by
  obtain ⟨hnew, hmarks⟩ := observe_walk hknown.marks hT hwalk hk hkm
  rw [observeAll_eq]
  simp only [hinit, if_true]
  refine ⟨?_, ?_, trivial⟩
  · rw [messages_ofMessage, hnew]
  · rw [Nat.max_eq_right (Nat.le_trans hm hhead)] at hmarks
    exact hmarks.weaken (Nat.le_trans hknown.le hm)

/-- The cursor after a successful poll. -/
theorem known_advance {c' : Cursor} {low head top : Nat}
    (hnamed : Named T) (hhead : head ≤ T.length) (hle : head ≤ top)
    (hlow : low ≤ head) (hlast : c'.lastID = idBefore T low)
    (hmarks : Observed T head top c'.mark) :
    Known T (c'.advance (idBefore T head)) head top where
  le := hle
  last := by
    unfold Cursor.advance
    by_cases hnone : idBefore T head = ""
    · -- nothing was ever written to the chat
      have hzero := idBefore_eq_empty hnamed hhead hnone
      simp only [hnone, ne_eq, not_true_eq_false, if_false]
      rw [hlast, show low = 0 by omega]
      rfl
    · simp only [ne_eq, hnone, not_false_eq_true, if_true]
  marks := hmarks

variable (source) in
theorem emitted_setState (next : String) (c : Collector) :
    messages (c.setState source next).events = messages c.events
      ∧ (c.setState source next).cursor = c.cursor
      ∧ (c.setState source next).stage = c.stage := by
  unfold Collector.setState
  split
  case isTrue => exact ⟨rfl, rfl, rfl⟩
  case isFalse =>
    refine ⟨?_, rfl, rfl⟩
    simp only [messages_append]
    exact List.append_nil _

variable (source) in
theorem emitted_fail (error : ProviderError) (c : Collector) :
    messages (c.fail source error).events = messages c.events
      ∧ (c.fail source error).cursor = c.cursor
      ∧ ∀ poll, (c.fail source error).stage ≠ .reading poll := by
  refine ⟨rfl, rfl, fun poll h => ?_⟩
  unfold Collector.fail at h
  simp only at h
  split at h <;> split at h <;> cases h

variable (source) in
/-- Nor is an answer about the stream. -/
theorem emitted_status (response : Response StreamStatus) (c : Collector) :
    messages (c.status source response).events = messages c.events
      ∧ (c.status source response).cursor = c.cursor
      ∧ ((c.status source response).stage = c.stage
        ∨ (c.status source response).stage = .reading {}
        ∨ ∀ poll, (c.status source response).stage ≠ .reading poll) := by
  have hfail := fun error => emitted_fail source error c
  have hoffline := emitted_setState source "offline" c
  unfold Collector.status
  split
  case h_1 e he =>
    split
    case isTrue => exact ⟨hoffline.1, hoffline.2.1, .inl hoffline.2.2⟩
    case isFalse =>
      obtain ⟨hevents, hcursor, hstage⟩ := hfail e.error
      exact ⟨hevents, hcursor, .inr (.inr hstage)⟩
  case h_2 stream hstream =>
    split
    case isTrue => exact ⟨hoffline.1, hoffline.2.1, .inl hoffline.2.2⟩
    case isFalse =>
      split
      case isTrue =>
        obtain ⟨hevents, hcursor, hstage⟩ := hfail
          { type := .unauthorized
            detail := "The Boosty account cannot read this stream" }
        exact ⟨hevents, hcursor, .inr (.inr hstage)⟩
      case isFalse => exact ⟨rfl, rfl, .inr (.inl rfl)⟩

variable (source plain) in
/-- A poll that is published sends what the cursor observes. -/
theorem emitted_publish (items : List BoostyMessage) (newest : String)
    (c : Collector) :
    messages (c.publish source plain items newest).events
        = messages c.events ++ messages (c.cursor.observeAll
          (BoostyMessage.normalize plain source) items.reverse).2
      ∧ (c.publish source plain items newest).cursor
        = ((c.cursor.observeAll (BoostyMessage.normalize plain source)
          items.reverse).1).advance newest
      ∧ (c.publish source plain items newest).stage = .asking := by
  unfold Collector.publish
  simp only
  obtain ⟨hevents, hcursor, hstage⟩ := emitted_setState source
    "live" { c with
      cursor := (c.cursor.observeAll (BoostyMessage.normalize plain source)
        items.reverse).1.advance newest
      events := c.events ++ (c.cursor.observeAll
        (BoostyMessage.normalize plain source) items.reverse).2
      stage := .asking }
  rw [hevents, hcursor, hstage, messages_append]
  exact ⟨rfl, rfl, rfl⟩

-- ==================================== system

/-- Before the first successful poll. -/
structure Fresh (s : System) : Prop where
  cursor : s.collector.cursor = {}
  heads : s.heads = []
  emitted : s.emitted = []
  reading : ∀ poll, s.collector.stage = .reading poll → poll = {}

/-- After it: the chat from `first` to `m` has been emitted. -/
structure Caught (source : StreamSource) (plain : String → Option String)
    (s : System) (first low m : Nat) : Prop where
  initialized : s.collector.cursor.initialized = true
  known : Known s.timeline s.collector.cursor low m
  le : first ≤ low
  head : s.heads.head? = some first
  last : s.heads.getLast? = some low
  emitted : s.emitted = (slice s.timeline first m).filterMap
    (BoostyMessage.normalize plain source)
  reading : ∀ poll, s.collector.stage = .reading poll → poll = {}
    ∨ poll.pageIndex ≠ 0 ∧ poll.newest ≠ ""
      ∧ Backwards s.timeline s.collector.cursor s.older low m s.head poll

/-- The collector has read nothing yet, or has caught up to some place of the
chat. -/
structure Inv (source : StreamSource) (plain : String → Option String)
    (s : System) : Prop where
  ordered : Chronological s.timeline
  named : Named s.timeline
  state : Fresh s ∨ ∃ first low m, Caught source plain s first low m

theorem page_refused {response : Response BoostyChatPage}
    (h : (pageOf response).isNone = true) (c : Cursor) (poll : Poll) :
    ∃ error, poll.page c response = .failed error := by
  unfold pageOf at h
  unfold Poll.page
  cases hr : request {} response with
  | error e => exact ⟨e.error, rfl⟩
  | ok page =>
      rw [hr] at h
      simp only [Option.isNone_iff_eq_none] at h
      simp only [h]
      exact ⟨_, rfl⟩

theorem page_block (T : List BoostyMessage) (c : Cursor) (poll : Poll)
    (a b : Nat) (extra : ChatExtra) :
    poll.page c (Served.response T (.block a b extra))
      = poll.read c (slice T a b).reverse extra := rfl

/-- What a page that fits comes to. -/
theorem page_cases {older : Nat} {served : Served}
    (hfits : served.Fits T older) (c : Cursor) (poll : Poll) :
    (∃ error, poll.page c (served.response T) = .failed error)
      ∨ ∃ a b extra, served = .block a b extra ∧ a ≤ older ∧ older ≤ b
        ∧ b ≤ T.length ∧ (extra.isLast = true → a = 0) ∧ (a = b → a = 0)
        ∧ poll.page c (served.response T)
          = poll.read c (slice T a b).reverse extra := by
  cases served with
  | refused response => exact .inl (page_refused hfits c poll)
  | block a b extra =>
      obtain ⟨ha, hb, hlen, -, hlast, hempty⟩ := hfits
      exact .inr ⟨a, b, extra, rfl, ha, hb, hlen, hlast, hempty,
        page_block T c poll a b extra⟩

/-- The first page of the first poll. -/
theorem read_first (hT : Chronological T) (hnamed : Named T) {a : Nat}
    (ha : a ≤ T.length) (hempty : a = T.length → a = 0) (extra : ChatExtra) :
    Poll.read {} {} (slice T a T.length).reverse extra
      = .done (slice T a T.length).reverse (idBefore T T.length) := by
  have hknown : Known T {} 0 0 :=
    ⟨Nat.le_refl 0, rfl, marks_origin (Nat.zero_le _)⟩
  obtain ⟨k, stopped, hscan, hak, -, -, hcase⟩ := scan_block hT hnamed hknown
    (backwards_first hknown) ha (Nat.le_refl _) (Nat.le_refl _) hempty
  obtain rfl : k = a := by
    rcases hcase with ⟨-, hk⟩ | ⟨-, hk, -⟩ <;> omega
  unfold Poll.read
  rw [hscan]
  simp

section Steps

variable {first low m : Nat} {served : Served}

/-- A poll that fails. -/
theorem caught_fail (h : Caught source plain s first low m)
    (error : ProviderError) (older head : Nat) :
    Caught source plain { s with
      collector := s.collector.fail source error, older, head }
      first low m where
  initialized := h.initialized
  known := h.known
  le := h.le
  head := h.head
  last := h.last
  emitted := h.emitted
  reading poll hpoll :=
    absurd hpoll ((emitted_fail _ error s.collector).2.2 poll)

theorem fresh_fail (h : Fresh s) (error : ProviderError) (older head : Nat) :
    Fresh { s with
      collector := s.collector.fail source error, older, head } where
  cursor := h.cursor
  heads := h.heads
  emitted := h.emitted
  reading poll hpoll :=
    absurd hpoll ((emitted_fail _ error s.collector).2.2 poll)

/-- The first successful poll emits nothing. -/
theorem caught_first (hT : Chronological s.timeline)
    (hnamed : Named s.timeline) (h : Fresh s) {a : Nat}
    (ha : a ≤ s.timeline.length) (older : Nat) :
    Caught source plain { s with
      collector := s.collector.publish source plain
        (slice s.timeline a s.timeline.length).reverse
        (idBefore s.timeline s.timeline.length)
      older
      head := s.timeline.length
      heads := s.heads ++ [s.timeline.length] }
      s.timeline.length s.timeline.length s.timeline.length := by
  obtain ⟨hevents, hcursor, hstage⟩ := emitted_publish source plain
    (slice s.timeline a s.timeline.length).reverse
    (idBefore s.timeline s.timeline.length) s.collector
  obtain ⟨hnothing, hmarks⟩ := observe_first hT ha
    (BoostyMessage.normalize plain source)
  have hemitted : messages s.collector.events = [] := h.emitted
  rw [List.reverse_reverse, h.cursor] at hevents hcursor
  rw [hnothing, hemitted] at hevents
  refine ⟨?_, ?_, Nat.le_refl _, ?_, ?_, ?_, fun poll hpoll => ?_⟩
  · rw [hcursor]
    rfl
  · rw [hcursor]
    refine known_advance hnamed (Nat.le_refl _) (Nat.le_refl _)
      (Nat.zero_le _) ?_ hmarks
    rw [observeAll_eq]
    rfl
  · simp only [h.heads]
    rfl
  · simp only [h.heads]
    rfl
  · rw [slice_of_le (Nat.le_refl _)]
    exact hevents
  · rw [hstage] at hpoll
    cases hpoll

/-- A later poll emits what has been written since. -/
theorem caught_publish (hT : Chronological s.timeline)
    (hnamed : Named s.timeline) (h : Caught source plain s first low m)
    {head k top older : Nat} {items : List BoostyMessage} (hk : low ≤ k)
    (hkm : k ≤ m) (hm : m ≤ head) (hhead : head ≤ top)
    (hlen : head ≤ s.timeline.length)
    (hwalk : Walk s.timeline k items.reverse top) :
    Caught source plain { s with
      collector := s.collector.publish source plain items
        (idBefore s.timeline head)
      older, head, heads := s.heads ++ [head] } first head top := by
  obtain ⟨hevents, hcursor, hstage⟩ := emitted_publish source plain
    items (idBefore s.timeline head) s.collector
  obtain ⟨hnew, hmarks, hlast⟩ := observe_later hT h.known h.initialized hk
    hkm hm hhead hwalk (BoostyMessage.normalize plain source)
  have hlow := Nat.le_trans h.known.le hm
  have hemitted : messages s.collector.events
      = (slice s.timeline first m).filterMap
        (BoostyMessage.normalize plain source) := h.emitted
  refine ⟨?_, ?_, Nat.le_trans h.le hlow, ?_, ?_, ?_, fun poll hpoll => ?_⟩
  · rw [hcursor]
    rfl
  · rw [hcursor]
    exact known_advance hnamed hlen hhead hlow
      (hlast.trans h.known.last) hmarks
  · rw [List.head?_append, h.head]
    rfl
  · exact List.getLast?_concat
  · have hfirst := Nat.le_trans h.le h.known.le
    rw [← slice_append hfirst (Nat.le_trans hm hhead), List.filterMap_append,
      ← hemitted, ← hnew]
    exact hevents
  · rw [hstage] at hpoll
    cases hpoll

end Steps

/-- The page of a poll that is on its way back, or begins. -/
theorem caught_page {first low m older head : Nat} {served : Served}
    (hT : Chronological s.timeline) (hnamed : Named s.timeline)
    (h : Caught source plain s first low m)
    (hback : Backwards s.timeline s.collector.cursor older low m head poll)
    (hfits : served.Fits s.timeline older) :
    ∃ low m, Caught source plain { s with
      collector := s.collector.page source plain poll
        (served.response s.timeline)
      older := served.start older
      head
      heads :=
        match poll.page s.collector.cursor (served.response s.timeline) with
        | .done _ _ => s.heads ++ [head]
        | _ => s.heads } first low m := by
  unfold Collector.page
  rcases page_cases hfits s.collector.cursor poll with
    ⟨error, hpage⟩ | ⟨a, b, extra, rfl, ha, hb, hlen, hlast, hempty, hpage⟩
  · rw [hpage]
    exact ⟨low, m, caught_fail h error _ _⟩
  · cases hread : poll.read s.collector.cursor
        (slice s.timeline a b).reverse extra with
    | failed error =>
        rw [hpage, hread]
        exact ⟨low, m, caught_fail h error _ _⟩
    | done items newest =>
        rw [hpage, hread]
        obtain ⟨rfl, k, top, hk, hkm, hhead, hwalk⟩ := read_done hT hnamed
          h.known hback ha hb hlen hempty h.initialized hlast hread
        exact ⟨head, top, caught_publish hT hnamed h hk hkm hback.observed
          hhead hback.le hwalk⟩
    | more poll' =>
        rw [hpage, hread]
        obtain ⟨hnext, hnewest, hindex⟩ := read_more hT hnamed h.known hback
          ha hb hlen hempty hread
        refine ⟨low, m, ⟨h.initialized, h.known, h.le, h.head, h.last,
          h.emitted, fun p hp => ?_⟩⟩
        cases hp
        exact .inr ⟨hindex, hnewest, hnext⟩

/-- The first page of the first poll. -/
theorem fresh_page {served : Served} (hT : Chronological s.timeline)
    (hnamed : Named s.timeline) (h : Fresh s)
    (hfits : served.Fits s.timeline s.timeline.length) :
    let next := { s with
      collector := s.collector.page source plain {}
        (served.response s.timeline)
      older := served.start s.timeline.length
      head := s.timeline.length
      heads :=
        match Poll.page s.collector.cursor {}
          (served.response s.timeline) with
        | .done _ _ => s.heads ++ [s.timeline.length]
        | _ => s.heads }
    Fresh next ∨ ∃ first low m, Caught source plain next first low m := by
  unfold Collector.page
  rcases page_cases hfits s.collector.cursor {} with
    ⟨error, hpage⟩ | ⟨a, b, extra, rfl, ha, hb, hlen, -, hempty, hpage⟩
  · rw [hpage]
    exact .inl (fresh_fail h error _ _)
  · obtain rfl : b = s.timeline.length := Nat.le_antisymm hlen hb
    have hread := read_first hT hnamed ha hempty extra
    rw [hpage, h.cursor, hread]
    exact .inr ⟨_, _, _, caught_first hT hnamed h ha _⟩

/-- A page of a poll. -/
theorem inv_page (h : Inv source plain s)
    (hstage : s.collector.stage = .reading poll) (served : Served) :
    Inv source plain (s.page source plain poll served) := by
  unfold System.page
  by_cases hindex : poll.pageIndex = 0
  · simp only [hindex, if_true]
    split
    case isFalse => exact h
    case isTrue hfits =>
      refine ⟨h.ordered, h.named, ?_⟩
      rcases h.state with hfresh | ⟨first, low, m, hcaught⟩
      · obtain rfl := hfresh.reading poll hstage
        exact fresh_page h.ordered h.named hfresh hfits
      · rcases hcaught.reading poll hstage with rfl | ⟨hnot, -⟩
        · exact .inr ⟨first, caught_page h.ordered h.named hcaught
            (backwards_first hcaught.known) hfits⟩
        · exact absurd hindex hnot
  · simp only [hindex, if_false]
    split
    case isFalse => exact h
    case isTrue hfits =>
      refine ⟨h.ordered, h.named, ?_⟩
      rcases h.state with hfresh | ⟨first, low, m, hcaught⟩
      · rw [hfresh.reading poll hstage] at hindex
        exact absurd rfl hindex
      · rcases hcaught.reading poll hstage with rfl | ⟨-, -, hback⟩
        · exact absurd rfl hindex
        · exact .inr ⟨first, caught_page h.ordered h.named hcaught hback
            hfits⟩

theorem known_grow {low m : Nat} (h : Known T c low m)
    (rest : List BoostyMessage) : Known (T ++ rest) c low m where
  le := h.le
  last := by
    rw [idBefore_grow (Nat.le_trans h.le h.marks.le)]
    exact h.last
  marks := h.marks.grow rest

/-- The chat stays ordered. -/
theorem chronological_snoc (hT : Chronological T) {message : BoostyMessage}
    (h : Appendable T message) : Chronological (T ++ [message]) where
  distinct := by
    rw [List.map_append]
    refine List.Nodup.append hT.distinct (by simp) ?_
    refine List.disjoint_singleton.mpr fun hmem => ?_
    obtain ⟨m, hm, heq⟩ := List.mem_map.mp hmem
    exact (h.1 m hm).1 heq
  sorted := by
    refine List.pairwise_append.mpr ⟨hT.sorted, by simp, fun a ha b hb => ?_⟩
    rw [List.mem_singleton.mp hb]
    exact (h.1 a ha).2
  origin a ha := by
    rcases List.mem_append.mp ha with ha | ha
    · exact hT.origin a ha
    · rw [List.mem_singleton.mp ha]
      exact h.2

/-- A message comes in. -/
theorem inv_append (h : Inv source plain s) {message : BoostyMessage}
    (happend : Appendable s.timeline message) (hid : message.id ≠ "") :
    Inv source plain { s with timeline := s.timeline ++ [message] } := by
  have hT := chronological_snoc h.ordered happend
  refine ⟨hT, fun m hm => ?_, ?_⟩
  · rcases List.mem_append.mp hm with hm | hm
    · exact h.named m hm
    · rw [List.mem_singleton.mp hm]
      exact hid
  · rcases h.state with hfresh | ⟨first, low, m, hcaught⟩
    · exact .inl ⟨hfresh.cursor, hfresh.heads, hfresh.emitted,
        hfresh.reading⟩
    · have hknown := known_grow hcaught.known [message]
      refine .inr ⟨first, low, m, hcaught.initialized, hknown, hcaught.le,
        hcaught.head, hcaught.last, ?_, fun poll hpoll => ?_⟩
      · rw [slice_grow _ hcaught.known.marks.le]
        exact hcaught.emitted
      · rcases hcaught.reading poll hpoll with hfirst | ⟨hi, hn, hback⟩
        · exact .inl hfirst
        · exact .inr ⟨hi, hn, hback.grow hT hn hknown⟩

/-- An answer about the stream. -/
theorem inv_status (h : Inv source plain s)
    (hstage : s.collector.stage = .asking)
    (response : Response StreamStatus) :
    Inv source plain { s with
      collector := s.collector.status source response } := by
  obtain ⟨hevents, hcursor, hnext⟩ := emitted_status source
    response s.collector
  have hreading : ∀ poll,
      (s.collector.status source response).stage = .reading poll →
        poll = {} := by
    intro poll hpoll
    rcases hnext with hsame | hfirst | hnone
    · rw [hsame, hstage] at hpoll
      cases hpoll
    · rw [hfirst] at hpoll
      cases hpoll
      rfl
    · exact absurd hpoll (hnone poll)
  refine ⟨h.ordered, h.named, ?_⟩
  rcases h.state with hfresh | ⟨first, low, m, hcaught⟩
  · exact .inl ⟨hcursor.trans hfresh.cursor, hfresh.heads,
      hevents.trans hfresh.emitted, hreading⟩
  · refine .inr ⟨first, low, m, ?_, ?_, hcaught.le, hcaught.head,
      hcaught.last, hevents.trans hcaught.emitted,
      fun poll hpoll => .inl (hreading poll hpoll)⟩
    · rw [hcursor]
      exact hcaught.initialized
    · rw [hcursor]
      exact hcaught.known

variable (source plain s) in
/-- A chat only grows. -/
theorem timeline_step (a : Action) :
    ∃ rest, (s.step source plain a).timeline = s.timeline ++ rest := by
  cases a with
  | append message =>
      simp only [System.step]
      split
      case isTrue => exact ⟨[message], rfl⟩
      case isFalse => exact ⟨[], (List.append_nil _).symm⟩
  | status response =>
      refine ⟨[], ?_⟩
      rw [List.append_nil]
      simp only [System.step]
      split <;> rfl
  | page served =>
      refine ⟨[], ?_⟩
      rw [List.append_nil]
      simp only [System.step]
      split
      case h_1 poll _ =>
        unfold System.page
        simp only
        generalize (if poll.pageIndex = 0 then s.timeline.length
          else s.older) = older
        split <;> rfl
      case h_2 => rfl

/-- One step, while messages have identifiers. -/
theorem inv_step (h : Inv source plain s) (a : Action)
    (hnamed : Named (s.step source plain a).timeline) :
    Inv source plain (s.step source plain a) := by
  cases a with
  | append message =>
      simp only [System.step] at hnamed ⊢
      split at hnamed
      case isTrue happend =>
        rw [if_pos happend]
        exact inv_append h happend (hnamed message (by simp))
      case isFalse hrefused =>
        rw [if_neg hrefused]
        exact h
  | status response =>
      simp only [System.step]
      split
      case h_1 hstage => exact inv_status h hstage response
      case h_2 => exact h
  | page served =>
      simp only [System.step]
      split
      case h_1 poll hstage => exact inv_page h hstage served
      case h_2 => exact h

-- ====================================== runs

/-- The chat and its collector after a run. -/
def polled (source : StreamSource) (plain : String → Option String)
    (acts : List Action) : System :=
  Run.run (System.step source plain) (System.init source) acts

theorem polled_snoc (acts : List Action) (a : Action) :
    polled source plain (acts ++ [a])
      = (polled source plain acts).step source plain a :=
  Run.run_snoc ..

/-- Nothing has been read. -/
theorem inv_init : Inv source plain (System.init source) where
  ordered := ⟨List.nodup_nil, List.Pairwise.nil, nofun⟩
  named := nofun
  state := by
    have hstart : (Collector.start source).cursor = {}
        ∧ messages (Collector.start source).events = []
        ∧ ∀ poll, (Collector.start source).stage = .reading poll →
          poll = {} := by
      unfold Collector.start
      split
      case isTrue => exact ⟨rfl, rfl, nofun⟩
      case isFalse =>
        obtain ⟨hevents, hcursor, hstage⟩ := emitted_setState
          source "connecting" {}
        refine ⟨hcursor, hevents, fun poll hpoll => ?_⟩
        rw [hstage] at hpoll
        cases hpoll
    exact .inl ⟨hstart.1, rfl, hstart.2.1, hstart.2.2⟩

theorem inv_run (acts : List Action)
    (hnamed : Named (polled source plain acts).timeline) :
    Inv source plain (polled source plain acts) := by
  induction acts using List.reverseRecOn with
  | nil => exact inv_init
  | append_singleton acts a ih =>
      rw [polled_snoc] at hnamed ⊢
      obtain ⟨rest, hrest⟩ := timeline_step source plain
        (polled source plain acts) a
      refine inv_step (ih fun m hm => hnamed m ?_) a hnamed
      rw [hrest]
      exact List.mem_append_left _ hm

variable (source plain) in
/-- A page after which the poll has not succeeded. -/
theorem quiet_page (poll : Poll) (response : Response BoostyChatPage)
    (c : Collector) :
    (∃ items newest, poll.page c.cursor response = .done items newest)
      ∨ (c.page source plain poll response).cursor = c.cursor
        ∧ messages (c.page source plain poll response).events
          = messages c.events := by
  unfold Collector.page
  cases poll.page c.cursor response with
  | failed error =>
      obtain ⟨hevents, hcursor, -⟩ := emitted_fail source error c
      exact .inr ⟨hcursor, hevents⟩
  | done items newest => exact .inl ⟨items, newest, rfl⟩
  | more poll' => exact .inr ⟨rfl, rfl⟩

variable (source plain s) in
/-- Only a poll that succeeds changes the cursor, or emits a message. -/
theorem quiet_step (a : Action) :
    (s.step source plain a).heads = s.heads
        ∧ (s.step source plain a).collector.cursor = s.collector.cursor
        ∧ (s.step source plain a).emitted = s.emitted
      ∨ ∃ head, (s.step source plain a).heads = s.heads ++ [head] := by
  cases a with
  | append message =>
      simp only [System.step]
      split <;> exact .inl ⟨rfl, rfl, rfl⟩
  | status response =>
      simp only [System.step]
      split
      case h_1 =>
        obtain ⟨hevents, hcursor, -⟩ := emitted_status source
          response s.collector
        exact .inl ⟨rfl, hcursor, hevents⟩
      case h_2 => exact .inl ⟨rfl, rfl, rfl⟩
  | page served =>
      simp only [System.step]
      split
      case h_2 => exact .inl ⟨rfl, rfl, rfl⟩
      case h_1 poll _ =>
        unfold System.page
        simp only
        generalize (if poll.pageIndex = 0 then s.timeline.length
          else s.head) = head
        generalize (if poll.pageIndex = 0 then s.timeline.length
          else s.older) = older
        split
        case isFalse => exact .inl ⟨rfl, rfl, rfl⟩
        case isTrue =>
          have hquiet := quiet_page source plain poll
            (served.response s.timeline) s.collector
          cases hpage : poll.page s.collector.cursor
              (served.response s.timeline) with
          | done items newest => exact .inr ⟨head, rfl⟩
          | failed error =>
              rw [hpage] at hquiet
              exact .inl ⟨rfl, hquiet.resolve_left nofun⟩
          | more poll' =>
              rw [hpage] at hquiet
              exact .inl ⟨rfl, hquiet.resolve_left nofun⟩

variable (source plain s) in
/-- As long as no poll succeeds. -/
theorem quiet_run (after : List Action) :
    s.heads.length ≤ (Run.run (System.step source plain) s after).heads.length
      ∧ ((Run.run (System.step source plain) s after).heads.length
          = s.heads.length →
        (Run.run (System.step source plain) s after).collector.cursor
            = s.collector.cursor
          ∧ (Run.run (System.step source plain) s after).emitted
            = s.emitted) := by
  induction after generalizing s with
  | nil => exact ⟨Nat.le_refl _, fun _ => ⟨rfl, rfl⟩⟩
  | cons a after ih =>
      rw [Run.run_cons]
      obtain ⟨hle, hsame⟩ := ih (s.step source plain a)
      rcases quiet_step source plain s a
        with ⟨hheads, hcursor, hemitted⟩ | ⟨head, hheads⟩
      · rw [hheads] at hle hsame
        refine ⟨hle, fun hlength => ?_⟩
        obtain ⟨hc, he⟩ := hsame hlength
        exact ⟨hc.trans hcursor, he.trans hemitted⟩
      · rw [hheads, List.length_append, List.length_singleton] at hle
        exact ⟨by omega, fun hlength => by omega⟩

-- ==================================== result

theorem normalize_id {m : BoostyMessage} {message : Message}
    (h : m.normalize plain source = some message) : message.id = m.id := by
  unfold BoostyMessage.normalize at h
  split at h
  case isTrue => cases h
  case isFalse =>
    simp only at h
    split at h
    case isTrue => cases h
    case isFalse =>
      cases h
      rfl

/-- Messages of a feed have distinct identifiers. -/
theorem nodup_normalize {l : List BoostyMessage}
    (h : (l.map BoostyMessage.id).Nodup) :
    ((l.filterMap (BoostyMessage.normalize plain source)).map
      Message.id).Nodup := by
  induction l with
  | nil => exact List.nodup_nil
  | cons m l ih =>
      rw [List.map_cons, List.nodup_cons] at h
      cases hm : m.normalize plain source with
      | none =>
          rw [List.filterMap_cons_none hm]
          exact ih h.2
      | some message =>
          rw [List.filterMap_cons_some hm, List.map_cons, List.nodup_cons]
          refine ⟨fun hmem => h.1 ?_, ih h.2⟩
          obtain ⟨message', hmessage', hid⟩ := List.mem_map.mp hmem
          obtain ⟨m', hm', hn⟩ := List.mem_filterMap.mp hmessage'
          rw [← normalize_id hm, ← hid, normalize_id hn]
          exact List.mem_map_of_mem hm'

/-- In every run in which the messages of the chat have identifiers,
what was emitted is the chat from the first successful poll on, at least
up to where it was when the last successful poll began; no message is
emitted twice, and polls that do not succeed change nothing. -/
theorem polls_exact (acts : List Action)
    (hnamed : Named (polled source plain acts).timeline) :
    ((polled source plain acts).heads = [] →
      (polled source plain acts).emitted = [])
    ∧ (∀ first last, (polled source plain acts).heads.head? = some first →
      (polled source plain acts).heads.getLast? = some last →
      ∃ stop, last ≤ stop ∧ stop ≤ (polled source plain acts).timeline.length
        ∧ (polled source plain acts).emitted
          = (((polled source plain acts).timeline.take stop).drop
            first).filterMap (BoostyMessage.normalize plain source))
    ∧ ((polled source plain acts).emitted.map Message.id).Nodup
    ∧ ∀ before after, acts = before ++ after →
      (polled source plain before).heads = (polled source plain acts).heads →
      (polled source plain acts).collector.cursor
          = (polled source plain before).collector.cursor
        ∧ (polled source plain acts).emitted
          = (polled source plain before).emitted := by
  have hinv := inv_run acts hnamed
  refine ⟨fun hheads => ?_, fun first last hfirst hlast => ?_, ?_,
    fun before after hacts hheads => ?_⟩
  · rcases hinv.state with hfresh | ⟨first, low, m, hcaught⟩
    · exact hfresh.emitted
    · have hhead := hcaught.head
      rw [hheads] at hhead
      cases hhead
  · rcases hinv.state with hfresh | ⟨first', low, m, hcaught⟩
    · rw [hfresh.heads] at hfirst
      cases hfirst
    · obtain rfl := Option.some.inj (hfirst.symm.trans hcaught.head)
      obtain rfl := Option.some.inj (hlast.symm.trans hcaught.last)
      exact ⟨m, hcaught.known.le, hcaught.known.marks.le, hcaught.emitted⟩
  · rcases hinv.state with hfresh | ⟨first, low, m, hcaught⟩
    · rw [hfresh.emitted]
      exact List.nodup_nil
    · rw [hcaught.emitted]
      refine nodup_normalize (hinv.ordered.distinct.sublist ?_)
      exact ((List.drop_sublist ..).trans (List.take_sublist ..)).map _
  · subst hacts
    have hquiet := (quiet_run source plain
      (polled source plain before) after).2
    unfold polled at hheads hquiet ⊢
    rw [Run.run_append] at hheads ⊢
    exact hquiet (congrArg List.length hheads).symm

/-- The source of the run below. -/
def sampleSource : StreamSource :=
  { sourceID := "source", connectionID := "connection"
    providerSourceID := "blog", accessToken := "token" }

/-- All messages of the samples are of one second. -/
def sampleMessage (id : String) : Action :=
  .append { id, author := { id := "1" }, createdAt := 1
            data := [{ type := "text", content := "text" }] }

/-- The stream is online. -/
def sampleOnline : Action :=
  .status (.answered 200 (some { isOnline := true, hasAccess := true }))

/-- A page of the chat, by its places in it. -/
def samplePage (start stop : Nat) (offset : String) : Action :=
  .page (.block start stop { offset })

/-- A chat of two messages, and a first poll that reads one of them. -/
def samplePoll (id : String) : List Action :=
  [sampleMessage "a", sampleMessage id, sampleOnline, samplePage 1 2 "1"]

/-- A later poll whose pages overlap. -/
theorem polls_exact_overlap :
    let s := polled sampleSource (fun _ => none) (samplePoll "b"
      ++ [sampleMessage "c", sampleOnline, samplePage 2 3 "1",
        samplePage 0 3 "2"])
    s.heads = [2, 3] ∧ ∃ stop, 3 ≤ stop ∧ stop ≤ s.timeline.length
      ∧ s.emitted = ((s.timeline.take stop).drop 2).filterMap
        (BoostyMessage.normalize (fun _ => none) sampleSource) := by
  refine ⟨by decide, (polls_exact _ ?_).2.1 2 3 (by decide) (by decide)⟩
  unfold Named
  decide

/-- The only message that the first poll read has no identifier, and the
next poll emits the message before it. -/
theorem older_emitted :
    let s := polled sampleSource (fun _ => none) (samplePoll ""
      ++ [sampleOnline, samplePage 1 2 "1", samplePage 0 1 "2",
        samplePage 0 0 "3"])
    ¬ ∀ first last, s.heads.head? = some first →
      s.heads.getLast? = some last →
      ∃ stop, last ≤ stop ∧ stop ≤ s.timeline.length
        ∧ s.emitted = ((s.timeline.take stop).drop first).filterMap
          (BoostyMessage.normalize (fun _ => none) sampleSource) := by
  intro s h
  obtain ⟨stop, hle, hlen, hemitted⟩ := h 2 2 (by decide) (by decide)
  have hlength : s.timeline.length = 2 := by decide
  obtain rfl : stop = 2 := by omega
  exact absurd hemitted (by decide)

end StreamBrew.Chat.Boosty
