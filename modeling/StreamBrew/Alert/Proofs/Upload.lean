/-
The length that is checked before an asset's text is decoded.

A text of whole quanta decodes to no more than its estimate: newlines
only lengthen the text, four of them or more by a quantum at least, and
without them the text is the content's encoding, whose estimate is exact
(`decodedBase64Length_encode`). A text that is not of whole quanta has no
estimate and is refused, also where newlines are why.
-/
import StreamBrew.Alert.Upload

namespace StreamBrew.Alert

open Text

section Estimate

variable {value content : Bytes}

/-- A text that is not of whole quanta has no estimate. -/
theorem decodedBase64Length_sentinel (h : value = [] ∨ value.length % 4 ≠ 0) :
    decodedBase64Length value = -1 := by
  rw [← List.length_eq_zero_iff] at h
  unfold decodedBase64Length
  rw [if_pos h]

/-- The padding takes at most two bytes off whole quanta. -/
theorem le_decodedBase64Length (hne : value ≠ [])
    (hwhole : value.length % 4 = 0) :
    (value.length / 4 * 3 - 2 : Int) ≤ decodedBase64Length value := by
  have hlength := List.length_pos_iff.mpr hne
  unfold decodedBase64Length
  rw [if_neg (by omega)]
  simp only
  split <;> split <;> omega

/-- Four more bytes in front are three bytes more. -/
theorem decodedBase64Length_quantum (a b c d : UInt8) (hne : value ≠ [])
    (hwhole : value.length % 4 = 0) :
    decodedBase64Length (a :: b :: c :: d :: value)
      = decodedBase64Length value + 3 := by
  have hlength := List.length_pos_iff.mpr hne
  have hlast : (a :: b :: c :: d :: value)[value.length + 4 - 1]?
      = value[value.length - 1]? := by
    have hindex : value.length + 4 - 1 = value.length - 1 + 4 := by omega
    rw [hindex]
    rfl
  have hwidth : 4 ≤ value.length := by omega
  have hsecond : (a :: b :: c :: d :: value)[value.length + 4 - 2]?
      = value[value.length - 2]? := by
    have hindex : value.length + 4 - 2 = value.length - 2 + 4 := by omega
    rw [hindex]
    rfl
  have hcount : (a :: b :: c :: d :: value).length = value.length + 4 := rfl
  have hwhole' : ¬(value.length = 0 ∨ value.length % 4 ≠ 0) := by omega
  have hquantum : ¬((a :: b :: c :: d :: value).length = 0
      ∨ (a :: b :: c :: d :: value).length % 4 ≠ 0) := by omega
  unfold decodedBase64Length
  rw [if_neg hwhole', if_neg hquantum]
  simp only [hcount]
  rw [hlast, hsecond]
  split <;> split <;> omega

/-- One quantum. -/
theorem decodedBase64Length_four (a b c d : UInt8) :
    decodedBase64Length [a, b, c, d]
      = if c = Base64.padChar then (if d = Base64.padChar then 2 else 3) - 1
        else if d = Base64.padChar then 2 else 3 := by
  have hwhole : ¬([a, b, c, d].length = 0 ∨ [a, b, c, d].length % 4 ≠ 0) := by
    simp
  have hquantum : ([a, b, c, d].length : Int) / 4 * 3 = 3 := by simp
  have hlast : [a, b, c, d][[a, b, c, d].length - 1]? = some d := rfl
  have hsecond : [a, b, c, d][[a, b, c, d].length - 2]? = some c := rfl
  unfold decodedBase64Length
  rw [if_neg hwhole]
  simp only
  rw [hlast, hsecond, hquantum]
  by_cases hc : c = Base64.padChar <;> by_cases hd : d = Base64.padChar
  · rw [if_pos (congrArg some hc), if_pos (congrArg some hd), if_pos hc,
      if_pos hd]
    rfl
  · rw [if_pos (congrArg some hc), if_neg (fun h => hd (Option.some.inj h)),
      if_pos hc, if_neg hd]
  · rw [if_neg (fun h => hc (Option.some.inj h)), if_pos (congrArg some hd),
      if_neg hc, if_pos hd]
    rfl
  · rw [if_neg (fun h => hc (Option.some.inj h)),
      if_neg (fun h => hd (Option.some.inj h)), if_neg hc, if_neg hd]

theorem encode_ne_nil (hne : content ≠ []) : Base64.encode content ≠ [] := by
  have hlength := Base64.length_encode content
  have hpos := List.length_pos_iff.mpr hne
  refine List.length_pos_iff.mp ?_
  omega

/-- The estimate of an encoding is the length of what was encoded. -/
theorem decodedBase64Length_encode (hne : content ≠ []) :
    decodedBase64Length (Base64.encode content) = content.length := by
  induction content using Base64.encode.induct with
  | case1 => exact absurd rfl hne
  | case2 a =>
      unfold Base64.encode
      rw [decodedBase64Length_four]
      rfl
  | case3 a b =>
      unfold Base64.encode
      rw [decodedBase64Length_four, if_neg (Base64.digit_ne_pad _)]
      rfl
  | case4 a b c rest ih =>
      by_cases hrest : rest = []
      · subst hrest
        unfold Base64.encode
        rw [Base64.encode, decodedBase64Length_four,
          if_neg (Base64.digit_ne_pad _), if_neg (Base64.digit_ne_pad _)]
        rfl
      · have hlength := Base64.length_encode rest
        unfold Base64.encode
        rw [decodedBase64Length_quantum _ _ _ _ (encode_ne_nil hrest)
          (by omega), ih hrest]
        push_cast [List.length_cons]
        ring

/-- A text is as long as its content's encoding and its newlines. -/
theorem length_eq_newlines (h : Base64.decodeString value = some content) :
    value.length = (Base64.encode content).length
      + (value.filter Base64.isNewline).length := by
  rw [← Base64.filter_of_decode h, Nat.add_comm]
  exact List.length_eq_length_filter_add Base64.isNewline

/-- No longer than the encoding is the encoding itself. -/
theorem eq_encode_of_length_le
    (h : Base64.decodeString value = some content)
    (hle : value.length ≤ (Base64.encode content).length) :
    value = Base64.encode content := by
  have hcount := length_eq_newlines h
  have hnone : value.filter Base64.isNewline = [] :=
    List.eq_nil_of_length_eq_zero (by omega)
  rw [← Base64.filter_of_decode h]
  refine (List.filter_eq_self.mpr fun b hb => ?_).symm
  have hline := List.filter_eq_nil_iff.mp hnone b hb
  simpa using hline

theorem length_le_decodedBase64Length
    (h : Base64.decodeString value = some content) (hne : value ≠ [])
    (hwhole : value.length % 4 = 0) :
    (content.length : Int) ≤ decodedBase64Length value := by
  have hencoded := Base64.length_encode content
  by_cases hshort : value.length ≤ (Base64.encode content).length
  · have hvalue := eq_encode_of_length_le h hshort
    have hcontent : content ≠ [] := by
      rintro rfl
      exact hne hvalue
    rw [hvalue, decodedBase64Length_encode hcontent]
  · have hestimate := le_decodedBase64Length hne hwhole
    omega

end Estimate

-- ================================= the check

theorem checkDecodedLength_ok {maxDecoded : Nat} {value : Bytes} :
    checkDecodedLength maxDecoded value = .ok ()
      ↔ 0 < decodedBase64Length value
        ∧ decodedBase64Length value ≤ maxDecoded := by
  unfold checkDecodedLength
  simp only
  split
  case isTrue h => exact iff_of_false (fun hok => nomatch hok) (by omega)
  case isFalse h =>
    split
    case isTrue hlarge =>
      exact iff_of_false (fun hok => nomatch hok) (by omega)
    case isFalse hlarge => exact iff_of_true rfl (by omega)

/-- A text of no estimate is refused before it is decoded. -/
theorem checkDecodedLength_refused {value : Bytes}
    (h : value = [] ∨ value.length % 4 ≠ 0) (maxDecoded : Nat) :
    checkDecodedLength maxDecoded value = .error invalidContent := by
  have hsentinel := decodedBase64Length_sentinel h
  unfold checkDecodedLength
  simp only
  rw [if_pos (by omega)]

/-- What passes the check is within the limit. -/
theorem length_le_of_checked {value content : Bytes} {maxDecoded : Nat}
    (h : Base64.decodeString value = some content)
    (hok : checkDecodedLength maxDecoded value = .ok ()) :
    content.length ≤ maxDecoded := by
  obtain ⟨hpos, hlimit⟩ := checkDecodedLength_ok.mp hok
  have hwhole : ¬(value = [] ∨ value.length % 4 ≠ 0) := by
    intro hnone
    rw [decodedBase64Length_sentinel hnone] at hpos
    omega
  rw [not_or, not_not] at hwhole
  have hle := length_le_decodedBase64Length h hwhole.1 hwhole.2
  omega

/-- A content within the limit passes the check, unless its text is
longer than its encoding. -/
theorem checked_of_length_le {value content : Bytes} {maxDecoded : Nat}
    (h : Base64.decodeString value = some content) (hne : content ≠ [])
    (hle : content.length ≤ maxDecoded)
    (hshort : value.length ≤ (Base64.encode content).length) :
    checkDecodedLength maxDecoded value = .ok () := by
  have hpos := List.length_pos_iff.mpr hne
  rw [checkDecodedLength_ok, eq_encode_of_length_le h hshort,
    decodedBase64Length_encode hne]
  omega

/-- The content that an upload passes on is that of its text, not empty,
and within the limit of its kind: the length check behind the decoding
never refuses a content. -/
theorem uploadAsset_ok {kind : Option AssetKind} {value content : Bytes} :
    uploadAsset kind value = .ok content
      ↔ ∃ maxDecoded, kind.bind AssetKind.maxDecoded = some maxDecoded
        ∧ checkDecodedLength maxDecoded value = .ok ()
        ∧ Base64.decodeString value = some content ∧ content ≠ []
        ∧ content.length ≤ maxDecoded := by
  have hdecode : ∀ maxDecoded, decodeContent maxDecoded value = .ok content
      ↔ checkDecodedLength maxDecoded value = .ok ()
        ∧ Base64.decodeString value = some content ∧ content ≠ []
        ∧ content.length ≤ maxDecoded := by
    intro maxDecoded
    unfold decodeContent
    cases hcheck : checkDecodedLength maxDecoded value with
    | error response => simp
    | ok =>
        cases hcontent : Base64.decodeString value with
        | none => simp
        | some found =>
            have hle := length_le_of_checked hcontent hcheck
            by_cases hnil : found = []
            · subst hnil
              simp only [List.length_nil, if_true, true_and]
              constructor
              · intro h
                cases h
              · rintro ⟨h, hne, -⟩
                exact absurd (Option.some.inj h).symm hne
            · have hlength : found.length ≠ 0 :=
                fun h => hnil (List.length_eq_zero_iff.mp h)
              simp only [hlength, if_false, Nat.not_lt.mpr hle,
                Except.ok.injEq, Option.some_inj, true_and]
              constructor
              · rintro rfl
                exact ⟨rfl, hnil, hle⟩
              · exact fun h => h.1
  unfold uploadAsset
  cases hmax : kind.bind AssetKind.maxDecoded with
  | none => simp
  | some maxDecoded => simp [hdecode]

/-- A text of whole quanta decodes to no more than its estimate, and any
other has the estimate -1 and is refused; so what passes the check is
within the limit, and a content within the limit passes it unless its
text is longer than its encoding. -/
theorem checkDecodedLength_sound (value : Bytes) :
    (value = [] ∨ value.length % 4 ≠ 0 →
        decodedBase64Length value = -1
        ∧ ∀ maxDecoded,
          checkDecodedLength maxDecoded value = .error invalidContent)
      ∧ ∀ content, Base64.decodeString value = some content →
        (value ≠ [] → value.length % 4 = 0 →
          (content.length : Int) ≤ decodedBase64Length value)
        ∧ ∀ maxDecoded,
          (checkDecodedLength maxDecoded value = .ok () →
            content.length ≤ maxDecoded)
          ∧ (content ≠ [] → content.length ≤ maxDecoded →
            value.length ≤ (Base64.encode content).length →
            checkDecodedLength maxDecoded value = .ok ()) := by
  constructor
  · intro h
    exact ⟨decodedBase64Length_sentinel h, checkDecodedLength_refused h⟩
  · intro content h
    exact ⟨length_le_decodedBase64Length h, fun maxDecoded =>
      ⟨length_le_of_checked h, checked_of_length_le h⟩⟩

/-- Newlines lengthen the estimate; without them it is exact. -/
theorem checkDecodedLength_sound_newlines :
    Base64.decodeString (bytes "QQ=\n=\n\n\n".toList) = some [0x41]
      ∧ checkDecodedLength 3 (bytes "QQ=\n=\n\n\n".toList)
        = .error uploadTooLarge
      ∧ checkDecodedLength 1 (bytes "QQ==".toList) = .ok ()
      ∧ 1 ≤ decodedBase64Length (bytes "QQ=\n=\n\n\n".toList) :=
  have hdecode : Base64.decodeString (bytes "QQ=\n=\n\n\n".toList)
      = some [0x41] := by decide
  have hcanonical : Base64.decodeString (bytes "QQ==".toList)
      = some [0x41] := by decide
  ⟨hdecode, by decide,
    (((checkDecodedLength_sound _).2 _ hcanonical).2 1).2 (by decide)
      (by decide) (by decide),
    ((checkDecodedLength_sound _).2 _ hdecode).1 (by decide) (by decide)⟩

/-- A newline that is passed over: three bytes and no estimate. -/
theorem decodedBase64Length_underestimates :
    ¬ ∀ value content, Base64.decodeString value = some content →
      (content.length : Int) ≤ decodedBase64Length value := by
  intro h
  have hdecode : Base64.decodeString (bytes "QUJD\n".toList)
      = some [0x41, 0x42, 0x43] := by decide
  exact absurd (h _ _ hdecode) (by decide)

end StreamBrew.Alert
