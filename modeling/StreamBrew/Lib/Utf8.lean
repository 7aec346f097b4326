/-
The decoder of the Encoding Standard for UTF-8: every maximal part of a
sequence that is none becomes U+FFFD.

A byte of a character that is not ASCII never disappears, so a text of
ASCII is the decoding of its own bytes alone (`decode_eq_ascii`). A
decoder that is given a stream in parts gives the text of the whole
(`Decoder.text_append`).
-/
import StreamBrew.Lib.Text

namespace Utf8

open Text

/-- A sequence that is not complete: the bytes it needs, its code point so
far, and the bounds of its next byte. -/
structure Pending where
  needed : Nat
  codePoint : Nat
  lower : Nat := 0x80
  upper : Nat := 0xBF
  deriving DecidableEq, Repr

/-- A byte that begins a character. -/
def begin (b : Nat) : Chars × Option Pending :=
  if b ≤ 0x7F then ([Char.ofNat b], none)
  else if 0xC2 ≤ b ∧ b ≤ 0xDF then
    ([], some { needed := 1, codePoint := b - 0xC0 })
  else if 0xE0 ≤ b ∧ b ≤ 0xEF then
    ([], some
      { needed := 2
        codePoint := b - 0xE0
        lower := if b = 0xE0 then 0xA0 else 0x80
        upper := if b = 0xED then 0x9F else 0xBF })
  else if 0xF0 ≤ b ∧ b ≤ 0xF4 then
    ([], some
      { needed := 3
        codePoint := b - 0xF0
        lower := if b = 0xF0 then 0x90 else 0x80
        upper := if b = 0xF4 then 0x8F else 0xBF })
  else (['\uFFFD'], none)

/-- A byte that goes on with one. -/
def Pending.next (p : Pending) (b : Nat) : Chars × Option Pending :=
  let codePoint := p.codePoint * 64 + (b - 0x80)
  if p.needed = 1 then ([Char.ofNat codePoint], none)
  else ([], some { needed := p.needed - 1, codePoint })

/-- A byte goes on with a sequence, or breaks it off and begins another. -/
def step (pending : Option Pending) (b : Nat) : Chars × Option Pending :=
  match pending with
  | none => begin b
  | some p =>
      if p.lower ≤ b ∧ b ≤ p.upper then p.next b
      else ('\uFFFD' :: (begin b).1, (begin b).2)

/-- What is left of a sequence at the end is replaced. -/
def decodeFrom : Option Pending → Bytes → Chars
  | none, [] => []
  | some _, [] => ['\uFFFD']
  | pending, b :: s =>
      (step pending b.toNat).1 ++ decodeFrom (step pending b.toNat).2 s

/-- The characters of bytes. -/
def decode (s : Bytes) : Chars := decodeFrom none s

-- =================================== streams

/-- What a part of a stream gives, and the sequence that it leaves. -/
def decodePart : Option Pending → Bytes → Chars × Option Pending
  | pending, [] => ([], pending)
  | pending, b :: s =>
      let (out, pending) := step pending b.toNat
      let (rest, pending) := decodePart pending s
      (out ++ rest, pending)

/-- A decoder of a stream between two parts. -/
structure Decoder where
  pending : Option Pending := none
  bomSeen : Bool := false
  deriving DecidableEq, Repr

/-- A byte order mark in front of all is dropped. -/
def serialize (bomSeen : Bool) : Chars → Chars × Bool
  | [] => ([], bomSeen)
  | c :: s => (if !bomSeen && c = '\uFEFF' then s else c :: s, true)

namespace Decoder

variable (decoder : Decoder)

/-- `decoder.decode(part, { stream: true })` -/
def decode (part : Bytes) : Chars × Decoder :=
  let (out, pending) := decodePart decoder.pending part
  let (text, bomSeen) := serialize decoder.bomSeen out
  (text, { pending, bomSeen })

/-- `decoder.decode()` -/
def flush : Chars :=
  (serialize decoder.bomSeen (decodeFrom decoder.pending [])).1

/-- The text of the rest of a stream. -/
def text (rest : Bytes) : Chars :=
  (serialize decoder.bomSeen (decodeFrom decoder.pending rest)).1

end Decoder

-- ===================================== facts

theorem toNat_ofNat {n : Nat} (h : n.isValidChar) :
    (Char.ofNat n).toNat = n := by
  unfold Char.ofNat
  rw [dif_pos h]
  rfl

/-- A code point beyond ASCII, without its last six bits. -/
def Upper (n : Nat) : Prop := 2 ≤ n ∧ (n < 864 ∨ 896 ≤ n) ∧ n < 17408

/-- The bounds of a sequence keep its character beyond ASCII. -/
def Pending.Good (p : Pending) : Prop :=
  0x80 ≤ p.lower ∧ p.upper ≤ 0xBF ∧
    ((p.needed = 1 ∧ Upper p.codePoint)
      ∨ (p.needed = 2 ∧ ∀ b, p.lower ≤ b → b ≤ p.upper →
          Upper (p.codePoint * 64 + (b - 0x80)))
      ∨ (p.needed = 3 ∧ ∀ b, p.lower ≤ b → b ≤ p.upper →
          16 ≤ p.codePoint * 64 + (b - 0x80)
            ∧ p.codePoint * 64 + (b - 0x80) < 272))

/-- What a byte gives stays within the bounds. -/
theorem begin_good {b : Nat} {p : Pending} (h : (begin b).2 = some p) :
    p.Good := by
  unfold begin at h
  split at h
  case isTrue => cases h
  case isFalse =>
  split at h
  case isTrue hb =>
    cases h
    refine ⟨le_refl _, le_refl _, Or.inl ⟨rfl, ?_⟩⟩
    unfold Upper
    dsimp only
    omega
  case isFalse =>
  split at h
  case isTrue hb =>
    cases h
    refine ⟨?_, ?_, Or.inr (Or.inl ⟨rfl, fun c hlower hupper => ?_⟩)⟩
    · dsimp only
      split <;> omega
    · dsimp only
      split <;> omega
    · unfold Upper
      dsimp only at hlower hupper ⊢
      split at hlower
      all_goals
        split at hupper
        all_goals omega
  case isFalse =>
  split at h
  case isTrue hb =>
    cases h
    refine ⟨?_, ?_, Or.inr (Or.inr ⟨rfl, fun c hlower hupper => ?_⟩)⟩
    · dsimp only
      split <;> omega
    · dsimp only
      split <;> omega
    · dsimp only at hlower hupper ⊢
      split at hlower
      all_goals
        split at hupper
        all_goals omega
  case isFalse => cases h

/-- A byte in the bounds of a pending sequence leaves a good one pending. -/
theorem next_good {p q : Pending} {b : Nat} (hp : p.Good)
    (hlower : p.lower ≤ b) (hupper : b ≤ p.upper)
    (h : (p.next b).2 = some q) : q.Good := by
  unfold Pending.next at h
  dsimp only at h
  split at h
  case isTrue => cases h
  case isFalse hneeded =>
    cases h
    refine ⟨le_refl _, le_refl _, ?_⟩
    rcases hp.2.2 with ⟨hone, -⟩ | ⟨htwo, hnext⟩ | ⟨hthree, hnext⟩
    · exact absurd hone hneeded
    · exact Or.inl ⟨by rw [htwo], hnext b hlower hupper⟩
    · have hb := hnext b hlower hupper
      refine Or.inr (Or.inl ⟨by rw [hthree], fun c hc hc' => ?_⟩)
      unfold Upper
      dsimp only at hc hc' ⊢
      omega

theorem step_good {pending : Option Pending} {b : Nat} {q : Pending}
    (hp : ∀ p, pending = some p → p.Good)
    (h : (step pending b).2 = some q) : q.Good := by
  unfold step at h
  split at h
  case h_1 => exact begin_good h
  case h_2 p =>
    split at h
    case isTrue hb => exact next_good (hp p rfl) hb.1 hb.2 h
    case isFalse => exact begin_good h

/-- A byte within a sequence never gives ASCII alone. -/
theorem step_pending {p : Pending} {b : Nat} (hp : p.Good) :
    (∃ c ∈ (step (some p) b).1, 0x80 ≤ c.toNat)
      ∨ ∃ q, (step (some p) b).2 = some q := by
  unfold step
  dsimp only
  split
  case isFalse =>
    exact Or.inl ⟨'\uFFFD', List.mem_cons_self, by decide⟩
  case isTrue hb =>
    unfold Pending.next
    dsimp only
    split
    case isFalse => exact Or.inr ⟨_, rfl⟩
    case isTrue hone =>
      refine Or.inl ⟨_, List.mem_singleton_self _, ?_⟩
      rcases hp.2.2 with ⟨-, hupper⟩ | ⟨htwo, -⟩ | ⟨hthree, -⟩
      · unfold Upper at hupper
        have hlow := hp.1
        have hhigh := hp.2.1
        rw [toNat_ofNat]
        · omega
        · unfold Nat.isValidChar
          omega
      · omega
      · omega

/-- A byte that begins a character is one of ASCII, or its character is
not. -/
theorem step_none (b : Nat) :
    (b < 0x80 ∧ step none b = ([Char.ofNat b], none))
      ∨ (∃ c ∈ (step none b).1, 0x80 ≤ c.toNat)
      ∨ ∃ q, (step none b).2 = some q := by
  show (b < 0x80 ∧ begin b = _) ∨ (∃ c ∈ (begin b).1, _) ∨ ∃ q, (begin b).2 = _
  unfold begin
  split
  case isTrue hb => exact Or.inl ⟨by omega, rfl⟩
  case isFalse =>
  split
  case isTrue => exact Or.inr (Or.inr ⟨_, rfl⟩)
  case isFalse =>
  split
  case isTrue => exact Or.inr (Or.inr ⟨_, rfl⟩)
  case isFalse =>
  split
  case isTrue => exact Or.inr (Or.inr ⟨_, rfl⟩)
  case isFalse =>
    exact Or.inr (Or.inl ⟨'\uFFFD', List.mem_singleton_self _, by decide⟩)

/-- Where only ASCII comes out, only ASCII went in. -/
theorem decodeFrom_ascii {pending : Option Pending} {s : Bytes}
    (hp : ∀ p, pending = some p → p.Good)
    (h : ∀ c ∈ decodeFrom pending s, c.toNat < 0x80) :
    pending = none ∧ decodeFrom none s = s.map ascii
      ∧ ∀ b ∈ s, b.toNat < 0x80 := by
  induction s generalizing pending with
  | nil =>
      cases pending with
      | none => exact ⟨rfl, rfl, fun b hb => nomatch hb⟩
      | some p =>
          exact absurd (h '\uFFFD' (List.mem_singleton_self _)) (by decide)
  | cons b s ih =>
      have hout : ∀ c ∈ (step pending b.toNat).1, c.toNat < 0x80 :=
        fun c hc => h c (by
          cases pending with
          | none => exact List.mem_append_left _ hc
          | some p => exact List.mem_append_left _ hc)
      have hrest := ih (fun q => step_good hp) fun c hc => h c (by
        cases pending with
        | none => exact List.mem_append_right _ hc
        | some p => exact List.mem_append_right _ hc)
      cases pending with
      | some p =>
          rcases step_pending (b := b.toNat) (hp p rfl)
            with ⟨c, hc, hwide⟩ | ⟨q, hq⟩
          · have hnarrow := hout c hc
            omega
          · rw [hq] at hrest
            exact absurd hrest.1 (by simp)
      | none =>
          rcases step_none b.toNat with ⟨hb, hstep⟩ | ⟨c, hc, hwide⟩ | ⟨q, hq⟩
          · refine ⟨rfl, ?_, fun d hd => ?_⟩
            · show (step none b.toNat).1 ++ decodeFrom (step none b.toNat).2 s
                = _
              rw [hstep]
              dsimp only
              rw [hrest.2.1]
              rfl
            · rcases List.mem_cons.mp hd with rfl | hd
              · exact hb
              · exact hrest.2.2 d hd
          · have hnarrow := hout c hc
            omega
          · rw [hq] at hrest
            exact absurd hrest.1 (by simp)

/-- Bytes of ASCII are decoded one by one. -/
theorem decode_of_ascii {s : Bytes} (h : ∀ b ∈ s, b.toNat < 0x80) :
    decode s = s.map ascii := by
  induction s with
  | nil => rfl
  | cons b s ih =>
      have hb := h b List.mem_cons_self
      have hs := ih fun c hc => h c (List.mem_cons_of_mem b hc)
      show (step none b.toNat).1 ++ decodeFrom (step none b.toNat).2 s = _
      have hstep : step none b.toNat = ([Char.ofNat b.toNat], none) := by
        show begin b.toNat = _
        unfold begin
        rw [if_pos (by omega)]
      rw [hstep, List.map_cons]
      exact congrArg (Char.ofNat b.toNat :: ·) hs

/-- A byte string that is decoded to a text of ASCII is that text, byte
by byte. -/
theorem decode_eq_ascii {s : Bytes} {t : Chars}
    (ht : ∀ c ∈ t, c.toNat < 0x80) (h : decode s = t) :
    s.map ascii = t ∧ ∀ b ∈ s, b.toNat < 0x80 := by
  subst h
  have hnone : ∀ p : Pending, none = some p → p.Good := fun _ h => nomatch h
  obtain ⟨-, hmap, hascii⟩ := decodeFrom_ascii hnone ht
  exact ⟨hmap.symm, hascii⟩

-- --------------------------------------------------------------- streams

theorem decodeFrom_append (pending : Option Pending) (s t : Bytes) :
    decodeFrom pending (s ++ t) = (decodePart pending s).1
      ++ decodeFrom (decodePart pending s).2 t := by
  induction s generalizing pending with
  | nil => rfl
  | cons b s ih =>
      have hcons : ∀ u, decodeFrom pending (b :: u)
          = (step pending b.toNat).1
            ++ decodeFrom (step pending b.toNat).2 u := fun u => by
        cases pending <;> rfl
      rw [List.cons_append, hcons, ih, ← List.append_assoc]
      rfl

theorem serialize_append (bomSeen : Bool) (s t : Chars) :
    (serialize bomSeen (s ++ t)).1 = (serialize bomSeen s).1
      ++ (serialize (serialize bomSeen s).2 t).1 := by
  cases s with
  | nil => rfl
  | cons c s =>
      have hseen : ∀ u, (serialize true u).1 = u := fun u => by
        cases u <;> rfl
      show (if !bomSeen && c = '\uFEFF' then s ++ t else c :: (s ++ t))
        = (if !bomSeen && c = '\uFEFF' then s else c :: s)
          ++ (serialize true t).1
      rw [hseen]
      split
      case isTrue => rfl
      case isFalse => rfl

/-- A text is that of its parts. -/
theorem Decoder.text_append (decoder : Decoder) (part rest : Bytes) :
    decoder.text (part ++ rest) = (decoder.decode part).1
      ++ (decoder.decode part).2.text rest := by
  unfold Decoder.text Decoder.decode
  rw [decodeFrom_append, serialize_append]

end Utf8
