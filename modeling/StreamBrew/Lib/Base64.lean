/-
Base64 with padding: the encoding, and a strict decoding, which passes
over newlines wherever they stand and refuses bits that are not zero
behind the last byte.

What decodes is its content's encoding but for the newlines
(`filter_of_decode`): of the texts without newlines, the encoding is the
only one.
-/
import StreamBrew.Lib.Text

namespace Base64

open Text

/-- The standard alphabet. -/
def alphabet : Bytes :=
  bytes
    "ABCDEFGHIJKLMNOPQRSTUVWXYZabcdefghijklmnopqrstuvwxyz0123456789+/".toList

/-- The padding. -/
def padChar : UInt8 := 0x3D

/-- Bytes that a decoder skips. -/
def isNewline (b : UInt8) : Bool := b = 0x0A || b = 0x0D

/-- The character of six bits. -/
def digit (n : Nat) : UInt8 := alphabet.getD n 0

/-- The six bits of a character, where it is in the alphabet. -/
def decodeMap (b : UInt8) : Option Nat := alphabet.idxOf? b

-- ================================== encoding

/-- Three bytes at a time are four characters. -/
def encode : Bytes → Bytes
  | [] => []
  | [a] =>
      [digit (a.toNat / 4), digit (a.toNat % 4 * 16), padChar, padChar]
  | [a, b] =>
      [digit (a.toNat / 4), digit (a.toNat % 4 * 16 + b.toNat / 16),
        digit (b.toNat % 16 * 4), padChar]
  | a :: b :: c :: rest =>
      digit (a.toNat / 4) :: digit (a.toNat % 4 * 16 + b.toNat / 16)
        :: digit (b.toNat % 16 * 4 + c.toNat / 64) :: digit (c.toNat % 64)
        :: encode rest

-- ================================== decoding

/-- The bytes of four digits. -/
def first (d0 d1 : Nat) : UInt8 := UInt8.ofNat (d0 * 4 + d1 / 16)

/-- The second byte of a group. -/
def second (d1 d2 : Nat) : UInt8 := UInt8.ofNat (d1 % 16 * 16 + d2 / 4)

/-- The third byte of a group. -/
def third (d2 d3 : Nat) : UInt8 := UInt8.ofNat (d2 % 4 * 64 + d3)

/-- The quanta of a source, where digits of the first were read already. -/
def decodeFrom (read : List Nat) : Bytes → Option Bytes
  | [] => if read = [] then some [] else none
  | b :: source =>
      match decodeMap b with
      | some d3 =>
          match read with
          | [d0, d1, d2] =>
              (decodeFrom [] source).map fun rest =>
                first d0 d1 :: second d1 d2 :: third d2 d3 :: rest
          | _ => decodeFrom (read ++ [d3]) source
      | none =>
          if isNewline b then decodeFrom read source
          else if b ≠ padChar then none
          else
            match read with
            | [d0, d1] =>
                match source.dropWhile isNewline with
                | [] => none
                | c :: rest =>
                    if c = padChar ∧ rest.all isNewline ∧ d1 % 16 = 0 then
                      some [first d0 d1]
                    else none
            | [d0, d1, d2] =>
                if source.all isNewline ∧ d2 % 4 = 0 then
                  some [first d0 d1, second d1 d2]
                else none
            | _ => none

/-- `StdEncoding.Strict().DecodeString(s)` -/
def decodeString (s : Bytes) : Option Bytes := decodeFrom [] s

-- ===================================== facts

theorem length_alphabet : alphabet.length = 64 := by decide

theorem not_newline_mem {b : UInt8} (h : b ∈ alphabet) :
    isNewline b = false := by
  have hall : alphabet.all (fun b => !isNewline b) = true := by decide
  simpa using List.all_eq_true.mp hall b h

theorem digit_ne_pad (n : Nat) : digit n ≠ padChar := by
  have hall : alphabet.all (fun b => b != padChar) = true := by decide
  unfold digit
  rw [List.getD_eq_getElem?_getD]
  cases hn : alphabet[n]? with
  | none =>
      rw [Option.getD_none]
      decide
  | some b =>
      have hb := List.all_eq_true.mp hall b (List.mem_of_getElem? hn)
      rw [Option.getD_some]
      simpa using hb

theorem decodeMap_some {b : UInt8} {d : Nat} (h : decodeMap b = some d) :
    d < 64 ∧ digit d = b ∧ isNewline b = false := by
  obtain ⟨hlt, hb, -⟩ := List.idxOf?_eq_some_iff.mp h
  have hdigit : digit d = b := by
    unfold digit
    rw [List.getD_eq_getElem?_getD, List.getElem?_eq_getElem hlt,
      Option.getD_some, hb]
  refine ⟨length_alphabet ▸ hlt, hdigit, not_newline_mem ?_⟩
  rw [← hb]
  exact List.getElem_mem hlt

section Quantum

variable {d0 d1 d2 d3 : Nat}

theorem toNat_first (h0 : d0 < 64) (h1 : d1 < 64) :
    (first d0 d1).toNat = d0 * 4 + d1 / 16 :=
  UInt8.toNat_ofNat_of_lt' (by show _ < 256; omega)

theorem toNat_second (h2 : d2 < 64) :
    (second d1 d2).toNat = d1 % 16 * 16 + d2 / 4 :=
  UInt8.toNat_ofNat_of_lt' (by show _ < 256; omega)

theorem toNat_third (h3 : d3 < 64) :
    (third d2 d3).toNat = d2 % 4 * 64 + d3 :=
  UInt8.toNat_ofNat_of_lt' (by show _ < 256; omega)

/-- One byte of two digits, where nothing is left of the second. -/
theorem encode_first (h0 : d0 < 64) (h1 : d1 < 64)
    (hstrict : d1 % 16 = 0) :
    encode [first d0 d1] = [digit d0, digit d1, padChar, padChar] := by
  have hd0 : (d0 * 4 + d1 / 16) / 4 = d0 := by omega
  have hd1 : (d0 * 4 + d1 / 16) % 4 * 16 = d1 := by omega
  show [digit _, digit _, padChar, padChar] = _
  rw [toNat_first h0 h1, hd0, hd1]

theorem encode_second (h0 : d0 < 64) (h1 : d1 < 64) (h2 : d2 < 64)
    (hstrict : d2 % 4 = 0) :
    encode [first d0 d1, second d1 d2]
      = [digit d0, digit d1, digit d2, padChar] := by
  have hd0 : (d0 * 4 + d1 / 16) / 4 = d0 := by omega
  have hd1 : (d0 * 4 + d1 / 16) % 4 * 16 + (d1 % 16 * 16 + d2 / 4) / 16
      = d1 := by omega
  have hd2 : (d1 % 16 * 16 + d2 / 4) % 16 * 4 = d2 := by omega
  show [digit _, digit _, digit _, padChar] = _
  rw [toNat_first h0 h1, toNat_second h2, hd0, hd1, hd2]

/-- Three bytes are four characters. -/
theorem encode_quantum (h0 : d0 < 64) (h1 : d1 < 64) (h2 : d2 < 64)
    (h3 : d3 < 64) (rest : Bytes) :
    encode (first d0 d1 :: second d1 d2 :: third d2 d3 :: rest)
      = digit d0 :: digit d1 :: digit d2 :: digit d3 :: encode rest := by
  have hd0 : (d0 * 4 + d1 / 16) / 4 = d0 := by omega
  have hd1 : (d0 * 4 + d1 / 16) % 4 * 16 + (d1 % 16 * 16 + d2 / 4) / 16
      = d1 := by omega
  have hd2 : (d1 % 16 * 16 + d2 / 4) % 16 * 4 + (d2 % 4 * 64 + d3) / 64
      = d2 := by omega
  have hd3 : (d2 % 4 * 64 + d3) % 64 = d3 := by omega
  show digit _ :: digit _ :: digit _ :: digit _ :: encode rest = _
  rw [toNat_first h0 h1, toNat_second h2, toNat_third h3, hd0, hd1, hd2,
    hd3]

end Quantum

theorem filter_newlines {s : Bytes} (h : s.all isNewline = true) :
    s.filter (fun b => !isNewline b) = [] := by
  refine List.filter_eq_nil_iff.mpr fun b hb => ?_
  rw [List.all_eq_true.mp h b hb]
  decide

theorem filter_dropWhile (s : Bytes) :
    (s.dropWhile isNewline).filter (fun b => !isNewline b)
      = s.filter fun b => !isNewline b := by
  induction s with
  | nil => rfl
  | cons b s ih =>
      cases hb : isNewline b with
      | false => rw [List.dropWhile_cons_of_neg (by simp [hb])]
      | true =>
          rw [List.dropWhile_cons_of_pos hb,
            List.filter_cons_of_neg (by simp [hb]),
            ih]

/-- What was read, and what is left without the newlines, is the encoding
of the content. -/
theorem filter_of_decodeFrom {read : List Nat} {source content : Bytes}
    (hread : ∀ d ∈ read, d < 64)
    (h : decodeFrom read source = some content) :
    read.map digit ++ source.filter (fun b => !isNewline b)
      = encode content := by
  induction source generalizing read content with
  | nil =>
      unfold decodeFrom at h
      split at h
      case isTrue hnil =>
        cases h
        rw [hnil]
        rfl
      case isFalse => cases h
  | cons b source ih =>
      unfold decodeFrom at h
      split at h
      case h_1 d3 hmap =>
        obtain ⟨h3, hdigit, hline⟩ := decodeMap_some hmap
        rw [List.filter_cons_of_pos (by simp [hline]), ← hdigit]
        split at h
        case h_1 d0 d1 d2 =>
          obtain ⟨rest, hrest, rfl⟩ := Option.map_eq_some_iff.mp h
          have hencoded := ih (by simp) hrest
          rw [encode_quantum (hread d0 (by simp)) (hread d1 (by simp))
            (hread d2 (by simp)) h3, ← hencoded]
          rfl
        case h_2 =>
          have hmore : ∀ d ∈ read ++ [d3], d < 64 := by
            intro d hd
            rcases List.mem_append.mp hd with hd | hd
            · exact hread d hd
            · rwa [List.mem_singleton.mp hd]
          rw [← ih hmore h, List.map_append, List.append_assoc]
          rfl
      case h_2 hmap =>
        split at h
        case isTrue hline =>
          rw [List.filter_cons_of_neg (by simp [hline])]
          exact ih hread h
        case isFalse hline =>
          rw [List.filter_cons_of_pos (by simp [hline])]
          split at h
          case isTrue => cases h
          case isFalse hpad =>
            rw [Decidable.not_not.mp hpad]
            split at h
            case h_1 d0 d1 =>
              split at h
              case h_1 => cases h
              case h_2 c rest hskip =>
                split at h
                case isTrue hend =>
                  cases h
                  have hfilter := filter_dropWhile source
                  rw [hskip, hend.1, List.filter_cons_of_pos (by decide),
                    filter_newlines hend.2.1] at hfilter
                  rw [encode_first (hread d0 (by simp)) (hread d1 (by simp))
                    hend.2.2, ← hfilter]
                  rfl
                case isFalse => cases h
            case h_2 d0 d1 d2 =>
              split at h
              case isTrue hend =>
                cases h
                rw [encode_second (hread d0 (by simp)) (hread d1 (by simp))
                  (hread d2 (by simp)) hend.2, filter_newlines hend.1]
                rfl
              case isFalse => cases h
            case h_3 => cases h

theorem filter_of_decode {s content : Bytes}
    (h : decodeString s = some content) :
    s.filter (fun b => !isNewline b) = encode content :=
  filter_of_decodeFrom (by simp) h

/-- Four digits for each three bytes, begun or whole. -/
theorem length_encode (content : Bytes) :
    (encode content).length = (content.length + 2) / 3 * 4 := by
  induction content using encode.induct with
  | case1 => rfl
  | case2 a => simp [encode]
  | case3 a b => simp [encode]
  | case4 a b c rest ih =>
      show (encode rest).length + 4 = (rest.length + 5) / 3 * 4
      rw [ih]
      omega

end Base64
