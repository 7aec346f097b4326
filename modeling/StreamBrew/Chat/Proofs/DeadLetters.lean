/-
The pages of dead letters, one after the other, are all the dead letters.

A page takes the letters below its start from the greatest sequence number
on (`below`), and what it leaves is what is below the number it stopped at
(`probe_ok`): the next page starts there. Every page that has a next one
took a step down, so the walk ends.
-/
import StreamBrew.Chat.DeadLetters

namespace StreamBrew.Chat.NatsDeadLetterStore

open Text

variable {store : NatsDeadLetterStore} {info : StreamState}
  {letters : List (UInt64 × StoredDeadLetter)} {limit : Int}

-- =================================== streams

/-- A broker that holds these letters, and nothing else. The sequence
numbers of messages begin at one: a stream that is still empty reports zero
as its first. -/
structure Keeps (store : NatsDeadLetterStore) (info : StreamState)
    (letters : List (UInt64 × StoredDeadLetter)) : Prop where
  streamInfo : store.streamInfo = .ok info
  msgs : info.msgs.toNat = letters.length
  first_pos : letters ≠ [] → 0 < info.firstSeq
  sorted : letters.Pairwise fun l l' => l.1 < l'.1
  range : ∀ l ∈ letters, info.firstSeq ≤ l.1 ∧ l.1 ≤ info.lastSeq
  found : ∀ l ∈ letters, ∃ data,
    store.getMsg l.1 = .ok (some data) ∧ store.unmarshal data = some l.2
  missing : ∀ sequence, (∀ l ∈ letters, l.1 ≠ sequence) →
    store.getMsg sequence = .ok none

/-- The pages from a request on, until one has no next page. -/
inductive Walk (store : NatsDeadLetterStore) (limit : Int) :
    Chars → List DeadLetterPage → Prop
  | last {rawSequence beforeSequence page} :
      parseBeforeSequence rawSequence = some beforeSequence →
      store.list limit beforeSequence = .ok page →
      page.nextBeforeSequence = [] → Walk store limit rawSequence [page]
  | next {rawSequence beforeSequence page pages} :
      parseBeforeSequence rawSequence = some beforeSequence →
      store.list limit beforeSequence = .ok page →
      page.nextBeforeSequence ≠ [] →
      Walk store limit page.nextBeforeSequence pages →
      Walk store limit rawSequence (page :: pages)

/-- Nothing else can follow. -/
theorem Walk.unique {rawSequence : Chars} {pages pages' : List DeadLetterPage}
    (h : Walk store limit rawSequence pages)
    (h' : Walk store limit rawSequence pages') : pages' = pages := by
  induction h generalizing pages' with
  | last hparse hlist hend =>
      cases h' with
      | last hparse' hlist' hend' =>
          cases hparse.symm.trans hparse'
          cases hlist.symm.trans hlist'
          rfl
      | next hparse' hlist' hnext hwalk =>
          cases hparse.symm.trans hparse'
          cases hlist.symm.trans hlist'
          exact absurd hend hnext
  | next hparse hlist hnext hwalk ih =>
      cases h' with
      | last hparse' hlist' hend =>
          cases hparse.symm.trans hparse'
          cases hlist.symm.trans hlist'
          exact absurd hend hnext
      | next hparse' hlist' hnext' hwalk' =>
          cases hparse.symm.trans hparse'
          cases hlist.symm.trans hlist'
          rw [ih hwalk']

-- ================================== minuends

theorem toNat_pred {sequence : UInt64} (h : sequence ≠ 0) :
    (sequence - 1).toNat + 1 = sequence.toNat := by
  have hpos : sequence.toNat ≠ 0 := fun hzero =>
    h (UInt64.toNat_inj.mp hzero)
  have hle : (1 : UInt64) ≤ sequence := by
    rw [UInt64.le_iff_toNat_le]
    exact Nat.one_le_iff_ne_zero.mpr hpos
  rw [UInt64.toNat_sub_of_le _ _ hle]
  exact Nat.succ_pred_eq_of_ne_zero hpos

/-- One is never subtracted from zero in the loop. -/
theorem probe_minuends {firstSeq : UInt64} {fuel : Nat} {p q : Probe}
    (h : store.probe firstSeq limit fuel p = .ok q)
    (hp : ∀ s ∈ p.minuends, s ≠ 0) : ∀ s ∈ q.minuends, s ≠ 0 := by
  induction fuel generalizing p with
  | zero =>
      cases h
      exact hp
  | succ fuel ih =>
      unfold probe at h
      split at h
      case isTrue =>
        split at h
        case h_1 => cases h
        case h_2 found hitem =>
          simp only at h
          split at h
          case isTrue =>
            cases h
            exact hp
          case isFalse hzero =>
            refine ih h fun s hs => ?_
            rcases List.mem_append.mp hs with hs | hs
            · exact hp s hs
            · rw [List.mem_singleton.mp hs]
              exact hzero
      case isFalse =>
        cases h
        exact hp

theorem start_minuends (info : StreamState) (beforeSequence : UInt64) :
    ∀ s ∈ (start info beforeSequence).minuends, s ≠ 0 := by
  intro s hs
  unfold start at hs
  split at hs
  case isTrue hbefore =>
    rw [List.mem_singleton.mp hs]
    rintro rfl
    exact absurd hbefore.1 (by decide)
  case isFalse => cases hs

/-- No subtraction of a listing wraps around. -/
theorem probed_minuends {beforeSequence : UInt64} {q : Probe}
    (h : store.probed info limit beforeSequence = .ok q) :
    ∀ s ∈ q.minuends, (s - 1).toNat + 1 = s.toNat := fun s hs =>
  toNat_pred (probe_minuends h (start_minuends info beforeSequence) s hs)

-- ===================================== below

/-- The letters up to a sequence number, the last first. -/
def below (letters : List (UInt64 × StoredDeadLetter)) (sequence : Nat) :
    List (UInt64 × StoredDeadLetter) :=
  letters.reverse.filter fun l => l.1.toNat ≤ sequence

/-- The letter of a number, where there is one. -/
def lettersAt (letters : List (UInt64 × StoredDeadLetter)) (sequence : Nat) :
    List (UInt64 × StoredDeadLetter) :=
  letters.reverse.filter fun l => l.1.toNat = sequence

/-- The letters as a page shows them. -/
def items (letters : List (UInt64 × StoredDeadLetter)) : List DeadLetter :=
  letters.map fun l => l.2.letter l.1

/-- Of descending letters, the one of a number comes before those below. -/
theorem filter_le_succ {descending : List (UInt64 × StoredDeadLetter)}
    (h : descending.Pairwise fun l l' => l'.1 < l.1) (n : Nat) :
    descending.filter (fun l => l.1.toNat ≤ n + 1)
      = descending.filter (fun l => l.1.toNat = n + 1)
        ++ descending.filter (fun l => l.1.toNat ≤ n) := by
  induction descending with
  | nil => rfl
  | cons l rest ih =>
      obtain ⟨hl, htail⟩ := List.pairwise_cons.mp h
      rcases Nat.lt_trichotomy l.1.toNat (n + 1) with hlt | heq | hgt
      · have hnone : rest.filter (fun l => l.1.toNat = n + 1) = [] := by
          refine List.filter_eq_nil_iff.mpr fun l' hl' => ?_
          have hlt' := UInt64.lt_iff_toNat_lt.mp (hl l' hl')
          simp only [decide_eq_true_eq]
          omega
        rw [List.filter_cons_of_pos (by simpa using hlt.le),
          List.filter_cons_of_neg (by simpa using hlt.ne),
          List.filter_cons_of_pos (by simpa using Nat.le_of_lt_succ hlt),
          ih htail, hnone]
        rfl
      · rw [List.filter_cons_of_pos (by simpa using heq.le),
          List.filter_cons_of_pos (by simpa using heq),
          List.filter_cons_of_neg (by simp only [decide_eq_true_eq]; omega),
          ih htail]
        rfl
      · rw [List.filter_cons_of_neg (by simp only [decide_eq_true_eq]; omega),
          List.filter_cons_of_neg (by simp only [decide_eq_true_eq]; omega),
          List.filter_cons_of_neg (by simp only [decide_eq_true_eq]; omega),
          ih htail]

-- ===================================== start

theorem start_items (info : StreamState) (beforeSequence : UInt64) :
    (start info beforeSequence).items = [] := by
  unfold start
  split <;> rfl

theorem start_le (info : StreamState) (beforeSequence : UInt64) :
    (start info beforeSequence).sequence.toNat ≤ info.lastSeq.toNat := by
  unfold start
  split
  case isTrue hbefore =>
    have hpos := UInt64.lt_iff_toNat_lt.mp hbefore.1
    have hle := UInt64.le_iff_toNat_le.mp hbefore.2
    have hne : beforeSequence ≠ 0 := by
      rintro rfl
      exact absurd hpos (Nat.lt_irrefl _)
    have hpred := toNat_pred hne
    simp only
    omega
  case isFalse => exact Nat.le_refl _

/-- The next request after a number starts at the number. -/
theorem start_succ {info : StreamState} {sequence : UInt64}
    (h : sequence.toNat < info.lastSeq.toNat) :
    sequence + 1 ≠ 0 ∧ (start info (sequence + 1)).sequence = sequence := by
  have hlast := info.lastSeq.toNat_lt
  have hsucc : (sequence + 1).toNat = sequence.toNat + 1 := by
    rw [UInt64.toNat_add]
    exact Nat.mod_eq_of_lt (by
      show sequence.toNat + 1 < 2 ^ 64
      omega)
  have hbefore : sequence + 1 > 0 ∧ sequence + 1 ≤ info.lastSeq := by
    rw [gt_iff_lt, UInt64.lt_iff_toNat_lt, UInt64.le_iff_toNat_le, hsucc]
    exact ⟨Nat.succ_pos _, h⟩
  refine ⟨?_, ?_⟩
  · intro hzero
    rw [hzero] at hsucc
    exact absurd hsucc (Nat.succ_ne_zero _).symm
  · unfold start
    rw [if_pos hbefore]
    exact UInt64.add_sub_cancel sequence 1

-- ===================================== pages

section Keeps

variable (h : Keeps store info letters)
include h

theorem Keeps.descending :
    letters.reverse.Pairwise fun l l' => l'.1 < l.1 :=
  List.pairwise_reverse.mpr h.sorted

theorem Keeps.below_succ (n : Nat) :
    below letters (n + 1) = lettersAt letters (n + 1) ++ below letters n :=
  filter_le_succ h.descending n

theorem Keeps.below_first {n : Nat} (hlt : n < info.firstSeq.toNat) :
    below letters n = [] := by
  refine List.filter_eq_nil_iff.mpr fun l hl => ?_
  have hrange := UInt64.le_iff_toNat_le.mp
    (h.range l (List.mem_reverse.mp hl)).1
  simp only [decide_eq_true_eq]
  omega

theorem Keeps.below_last : below letters info.lastSeq.toNat = letters.reverse :=
  List.filter_eq_self.mpr fun l hl => decide_eq_true
    (UInt64.le_iff_toNat_le.mp (h.range l (List.mem_reverse.mp hl)).2)

/-- A letter is the only one with its number. -/
theorem Keeps.lettersAt_eq {l : UInt64 × StoredDeadLetter} (hl : l ∈ letters) :
    lettersAt letters l.1.toNat = [l] := by
  obtain ⟨before, after, heq⟩ := List.append_of_mem (List.mem_reverse.mpr hl)
  have hdescending := h.descending
  unfold lettersAt
  rw [heq] at hdescending ⊢
  obtain ⟨-, hafter, hbefore⟩ := List.pairwise_append.mp hdescending
  have hnone : before.filter (fun l' => l'.1.toNat = l.1.toNat) = [] := by
    refine List.filter_eq_nil_iff.mpr fun l' hl' => ?_
    have hlt := UInt64.lt_iff_toNat_lt.mp
      (hbefore l' hl' l List.mem_cons_self)
    simp only [decide_eq_true_eq]
    omega
  have hnone' : after.filter (fun l' => l'.1.toNat = l.1.toNat) = [] := by
    refine List.filter_eq_nil_iff.mpr fun l' hl' => ?_
    have hlt := UInt64.lt_iff_toNat_lt.mp
      ((List.pairwise_cons.mp hafter).1 l' hl')
    simp only [decide_eq_true_eq]
    omega
  rw [List.filter_append, hnone, List.filter_cons_of_pos (by simp), hnone']
  rfl

/-- What is found under a number is the letter that has it. -/
theorem Keeps.item (sequence : UInt64) :
    ∃ found, store.item sequence = .ok found
      ∧ found.toList = items (lettersAt letters sequence.toNat) := by
  by_cases hex : ∃ l ∈ letters, l.1 = sequence
  case pos =>
    obtain ⟨l, hl, rfl⟩ := hex
    obtain ⟨data, hdata, hletter⟩ := h.found l hl
    refine ⟨some (l.2.letter l.1), ?_, ?_⟩
    · unfold NatsDeadLetterStore.item
      simp only [hdata, hletter]
    · rw [h.lettersAt_eq hl]
      rfl
  case neg =>
    have hnone : ∀ l ∈ letters, l.1 ≠ sequence := fun l hl heq =>
      hex ⟨l, hl, heq⟩
    refine ⟨none, ?_, ?_⟩
    · unfold NatsDeadLetterStore.item
      simp only [h.missing sequence hnone]
    · have hfilter : lettersAt letters sequence.toNat = [] := by
        refine List.filter_eq_nil_iff.mpr fun l hl => ?_
        have hne := hnone l (List.mem_reverse.mp hl)
        simpa [UInt64.toNat_inj] using hne
      rw [hfilter]
      rfl

/-- The loop stops below the first letter or with a full page, and what it
leaves is what is below the number it stopped at. -/
theorem Keeps.probe_ok {fuel : Nat} {p : Probe} (hsome : letters ≠ [])
    (hfuel : p.sequence.toNat < fuel) (hlength : p.items.length ≤ limit) :
    ∃ q taken, store.probe info.firstSeq limit fuel p = .ok q
      ∧ below letters p.sequence.toNat
        = taken ++ below letters q.sequence.toNat
      ∧ q.items = p.items ++ items taken
      ∧ (q.sequence < info.firstSeq ∨ q.items.length = limit)
      ∧ q.sequence.toNat ≤ p.sequence.toNat
      ∧ (p.items.length < limit → info.firstSeq ≤ p.sequence →
        q.sequence.toNat < p.sequence.toNat) := by
  induction fuel generalizing p with
  | zero => exact absurd hfuel (Nat.not_lt_zero _)
  | succ fuel ih =>
      unfold probe
      split
      case isFalse hstop =>
        refine ⟨p, [], rfl, rfl, (List.append_nil _).symm, ?_, Nat.le_refl _,
          fun hlt hge => absurd ⟨hge, hlt⟩ hstop⟩
        by_cases hlt : p.sequence < info.firstSeq
        · exact Or.inl hlt
        · have hge : p.sequence ≥ info.firstSeq := by
            rw [ge_iff_le, UInt64.le_iff_toNat_le]
            rw [UInt64.lt_iff_toNat_lt] at hlt
            omega
          have hfull : ¬(p.items.length : Int) < limit := fun hlt =>
            hstop ⟨hge, hlt⟩
          exact Or.inr (by omega)
      case isTrue hgo =>
        have hfirst := UInt64.lt_iff_toNat_lt.mp (h.first_pos hsome)
        have hsequence := UInt64.le_iff_toNat_le.mp hgo.1
        have hne : p.sequence ≠ 0 := by
          intro hzero
          rw [hzero] at hsequence
          omega
        have hpred := toNat_pred hne
        obtain ⟨found, hitem, hfound⟩ := h.item p.sequence
        have hone : found.toList.length ≤ 1 := by cases found <;> simp
        simp only [hitem, if_neg hne]
        obtain ⟨q, taken, hq, hbelow, hitems, hend, hle, -⟩ :=
          ih (p := ⟨p.items ++ found.toList, p.sequence - 1,
              p.minuends ++ [p.sequence]⟩)
            (by simp only; omega) (by
              rw [List.length_append]
              push_cast
              omega)
        refine ⟨q, lettersAt letters p.sequence.toNat ++ taken, hq, ?_, ?_,
          hend, ?_, fun _ _ => ?_⟩
        · rw [← hpred, h.below_succ, hbelow, List.append_assoc]
        · rw [hitems, hfound, List.append_assoc]
          unfold items
          rw [← List.map_append]
        · simp only at hle
          omega
        · simp only at hle
          omega

/-- A page is the first of what is below its start, and its next request
starts where it stopped. -/
theorem Keeps.list_ok (hlimit : 1 ≤ limit ∧ limit ≤ 100)
    (beforeSequence : UInt64) :
    ∃ page taken rest, store.list limit beforeSequence = .ok page
      ∧ below letters (start info beforeSequence).sequence.toNat = taken ++ rest
      ∧ page.items = items taken
      ∧ (page.nextBeforeSequence = [] ∧ rest = []
        ∨ ∃ next, page.nextBeforeSequence = formatUint next ∧ next ≠ 0
          ∧ rest = below letters (start info next).sequence.toNat
          ∧ (start info next).sequence.toNat
            < (start info beforeSequence).sequence.toNat) := by
  unfold list
  rw [if_neg (by omega), h.streamInfo]
  simp only
  split
  case isTrue hnone =>
    have hmsgs := h.msgs
    rw [hnone] at hmsgs
    have hnil : letters = [] := List.eq_nil_of_length_eq_zero hmsgs.symm
    subst hnil
    exact ⟨_, [], [], rfl, rfl, rfl, Or.inl ⟨rfl, rfl⟩⟩
  case isFalse hmsgs =>
    have hsome : letters ≠ [] := by
      rintro rfl
      exact hmsgs (UInt64.toNat_inj.mp h.msgs)
    have hempty := start_items info beforeSequence
    have hlast := start_le info beforeSequence
    have hlength :
        ((start info beforeSequence).items.length : Int) ≤ limit := by
      rw [hempty]
      show (0 : Int) ≤ limit
      omega
    obtain ⟨q, taken, hq, hbelow, hitems, hend, hle, hlt⟩ :=
      h.probe_ok hsome (Nat.lt_succ_self _) hlength
    have hprobed : store.probed info limit beforeSequence = .ok q := hq
    rw [hempty] at hitems hlt
    rw [hprobed]
    refine ⟨_, taken, _, rfl, hbelow, hitems, ?_⟩
    simp only
    split
    case isFalse hmore =>
      have hbefore : q.sequence.toNat < info.firstSeq.toNat := by
        rcases hend with hbefore | hfull
        · exact UInt64.lt_iff_toNat_lt.mp hbefore
        · refine Nat.lt_of_not_le fun hge => hmore ⟨hfull, ?_⟩
          exact UInt64.le_iff_toNat_le.mpr hge
      exact Or.inl ⟨rfl, h.below_first hbefore⟩
    case isTrue hmore =>
      have hfirst := UInt64.le_iff_toNat_le.mp hmore.2
      have hroom : (([] : List DeadLetter).length : Int) < limit := by
        show (0 : Int) < limit
        omega
      have hdown := hlt hroom (UInt64.le_iff_toNat_le.mpr (by omega))
      have hbound : q.sequence.toNat < info.lastSeq.toNat := by omega
      obtain ⟨hne, hstart⟩ := start_succ hbound
      refine Or.inr ⟨q.sequence + 1, rfl, hne, ?_, ?_⟩
      · rw [hstart]
      · rw [hstart]
        exact hdown

end Keeps

-- ===================================== walks

theorem formatUint_ne_nil (sequence : UInt64) : formatUint sequence ≠ [] :=
  Nat.toDigits_ne_nil

/-- The next request is read as the number it was written from. -/
theorem parse_formatUint {sequence : UInt64} (h : sequence ≠ 0) :
    parseBeforeSequence (formatUint sequence) = some sequence := by
  have hnumber : Decimal.number (formatUint sequence) = sequence.toNat :=
    Decimal.number_toDigits _
  have hdigits : (formatUint sequence).all Char.isDigit = true :=
    List.all_eq_true.mpr Decimal.isDigit_toDigits
  unfold parseBeforeSequence
  rw [if_neg (formatUint_ne_nil sequence), hnumber, if_pos, UInt64.ofNat_toNat]
  exact ⟨hdigits, sequence.toNat_lt, fun hzero => h (UInt64.toNat_inj.mp hzero)⟩

/-- From any request on, the pages are the letters below its start. -/
theorem Keeps.walk (h : Keeps store info letters)
    (hlimit : 1 ≤ limit ∧ limit ≤ 100) {rawSequence : Chars}
    {beforeSequence : UInt64}
    (hparse : parseBeforeSequence rawSequence = some beforeSequence) :
    ∃ pages, Walk store limit rawSequence pages
      ∧ pages.flatMap DeadLetterPage.items
        = items (below letters (start info beforeSequence).sequence.toNat) := by
  induction hn : (start info beforeSequence).sequence.toNat
    using Nat.strong_induction_on generalizing rawSequence beforeSequence with
  | _ n ih =>
      subst hn
      obtain ⟨page, taken, rest, hlist, hbelow, hitems, hnext⟩ :=
        h.list_ok hlimit beforeSequence
      rcases hnext with ⟨hend, rfl⟩ | ⟨next, hraw, hne, rfl, hlt⟩
      · refine ⟨[page], Walk.last hparse hlist hend, ?_⟩
        rw [hbelow, List.append_nil, ← hitems, List.flatMap_singleton]
      · have hparse' :
            parseBeforeSequence page.nextBeforeSequence = some next := by
          rw [hraw]
          exact parse_formatUint hne
        obtain ⟨pages, hwalk, hpages⟩ := ih _ hlt hparse' rfl
        have hsome : page.nextBeforeSequence ≠ [] := by
          rw [hraw]
          exact formatUint_ne_nil next
        refine ⟨page :: pages, Walk.next hparse hlist hsome hwalk, ?_⟩
        rw [List.flatMap_cons, hpages, hbelow, hitems]
        unfold items
        rw [List.map_append]

/-- The pages from the first on end, and are all letters, each once, in
descending order of their numbers; and no listing subtracts from zero. -/
theorem list_complete {store : NatsDeadLetterStore} {info : StreamState}
    {letters : List (UInt64 × StoredDeadLetter)} {limit : Int}
    (h : Keeps store info letters) (hlimit : 1 ≤ limit ∧ limit ≤ 100) :
    (∃ pages, Walk store limit [] pages
        ∧ (∀ pages', Walk store limit [] pages' → pages' = pages)
        ∧ pages.flatMap DeadLetterPage.items
          = letters.reverse.map (fun l => l.2.letter l.1)
        ∧ (letters.reverse.map Prod.fst).Pairwise (· > ·))
      ∧ ∀ beforeSequence p,
        store.probed info limit beforeSequence = .ok p →
        ∀ s ∈ p.minuends, (s - 1).toNat + 1 = s.toNat := by
  refine ⟨?_, fun _ _ hprobed => probed_minuends hprobed⟩
  obtain ⟨pages, hwalk, hitems⟩ := h.walk hlimit
    (show parseBeforeSequence [] = some 0 from rfl)
  refine ⟨pages, hwalk, fun _ hwalk' => hwalk.unique hwalk', ?_, ?_⟩
  · have hstart : start info 0 = ⟨[], info.lastSeq, []⟩ :=
      if_neg fun hpos => absurd hpos.1 (by decide)
    rw [hitems, hstart, h.below_last]
    rfl
  · rw [List.pairwise_map]
    exact h.descending

/-- The document of one letter. -/
private def body : Bytes :=
  bytes ("\x7b\"failedAt\":\"2026-01-01T00:00:00Z\","
    ++ "\"sourceSubject\":\"chat.1\","
    ++ "\"error\":\"invalid chat message event\","
    ++ "\"payload\":\"e30=\",\"payloadTruncated\":false\x7d").toList

/-- What the document decodes to. -/
private def letter : StoredDeadLetter :=
  ⟨820540800000000, bytes "chat.1".toList, "invalid chat message event",
    [0x7B, 0x7D], false⟩

/-- A stream of two letters, whose others have been deleted. -/
private def gapped : NatsDeadLetterStore where
  streamInfo := .ok ⟨2, 3, 9⟩
  getMsg sequence :=
    .ok (if sequence = 3 ∨ sequence = 7 then some body else none)
  unmarshal data := if data = body then some letter else none

/-- Two letters with a gap between them, one a page. -/
theorem list_complete_gapped :
    ∃ pages, Walk gapped 1 [] pages
      ∧ pages.flatMap DeadLetterPage.items
        = [letter.letter 7, letter.letter 3] := by
  have hletter : gapped.unmarshal body = some letter := by simp [gapped]
  have hkeeps : Keeps gapped ⟨2, 3, 9⟩ [(3, letter), (7, letter)] := by
    refine ⟨rfl, rfl, fun _ => by decide, by simp, by simp, ?_, ?_⟩
    · intro l hl
      rcases List.mem_pair.mp hl with rfl | rfl
      · exact ⟨body, by simp [gapped], hletter⟩
      · exact ⟨body, by simp [gapped], hletter⟩
    · intro sequence hne
      have h3 := hne (3, letter) (by simp)
      have h7 := hne (7, letter) (by simp)
      show Except.ok (if _ then _ else _) = _
      rw [if_neg]
      rintro (rfl | rfl)
      · exact h3 rfl
      · exact h7 rfl
  obtain ⟨pages, hwalk, -, hitems, -⟩ :=
    (list_complete hkeeps (by decide : (1 : Int) ≤ 1 ∧ (1 : Int) ≤ 100)).1
  exact ⟨pages, hwalk, hitems⟩

end StreamBrew.Chat.NatsDeadLetterStore
