/-
The lines of a stream do not depend on how it is cut into chunks.

A text has its lines on its own (`linesOf`). What is in the buffer
between two chunks is the beginning of a line: it makes the line that it
begins too long as soon as it is too long itself (`linesOf_tooLong`), and
the lines before it are those that have been read (`linesOf_append`).
-/
import StreamBrew.Alert.Ndjson
import StreamBrew.Lib.Encoding

namespace StreamBrew.Alert.Ndjson

open Text

variable {maximumLineLength : Nat}

/-- The lines of a text that are not blank, up to the first that is too
long. -/
def linesOf (maximumLineLength : Nat) (text : Chars) : List Chars × Ending :=
  (((text.splitOn '\n').takeWhile fun line =>
      !tooLong maximumLineLength line).filter nonBlank,
    if (text.splitOn '\n').any (tooLong maximumLineLength) then .lineTooLong
    else .returned)

/-- The loop over lines, in one equation. -/
theorem yieldLines_eq (lines : List Chars) :
    yieldLines maximumLineLength lines
      = ((lines.takeWhile fun line =>
          !tooLong maximumLineLength line).filter nonBlank,
        !lines.any (tooLong maximumLineLength)) := by
  induction lines with
  | nil => rfl
  | cons line lines ih =>
      unfold yieldLines
      cases hlong : tooLong maximumLineLength line with
      | true =>
          rw [if_pos rfl, List.takeWhile_cons_of_neg (by simp [hlong])]
          simp [hlong]
      | false =>
          rw [if_neg (by simp), ih,
            List.takeWhile_cons_of_pos (by simp [hlong]),
            List.filter_cons, List.any_cons, hlong, Bool.false_or]

theorem length_append (s t : Chars) :
    Utf16.length (s ++ t) = Utf16.length s + Utf16.length t := by
  unfold Utf16.length
  rw [List.map_append, List.sum_append]

/-- The beginning of a line that is too long. -/
theorem tooLong_append {line : Chars}
    (h : tooLong maximumLineLength line = true)
    (rest : Chars) : tooLong maximumLineLength (line ++ rest) = true := by
  have hline := of_decide_eq_true h
  refine decide_eq_true ?_
  rw [length_append]
  omega

/-- A text ends with the beginning of a line. -/
theorem splitOn_eq (text : Chars) :
    text.splitOn '\n'
      = (completeLines text).lines ++ [(completeLines text).remainder] := by
  have hne := List.splitOn_ne_nil '\n' text
  unfold completeLines
  rw [List.getLast?_eq_some_getLast hne]
  exact (List.dropLast_concat_getLast hne).symm

/-- What follows goes on with the last line. -/
theorem splitOn_append_last {text last : Chars} {init : List Chars}
    (h : text.splitOn '\n' = init ++ [last]) (rest : Chars) :
    (text ++ rest).splitOn '\n' = init ++ (last ++ rest).splitOn '\n' := by
  induction text generalizing init last with
  | nil =>
      cases init with
      | nil =>
          cases h
          rfl
      | cons line init =>
          have htail := (List.cons.inj h).2
          simp at htail
  | cons c text ih =>
      have htext := splitOn_eq text
      have hrest := ih htext
      rw [List.cons_append, List.splitOn_cons_eq_if_modifyHead]
      rw [List.splitOn_cons_eq_if_modifyHead] at h
      generalize (completeLines text).lines = lines at htext hrest
      generalize (completeLines text).remainder = remainder at htext hrest
      split
      case isTrue hc =>
        rw [if_pos hc, htext] at h
        have hboth : ([] :: lines) ++ [remainder] = init ++ [last] := h
        obtain ⟨rfl, hlast⟩ := List.append_inj' hboth rfl
        cases hlast
        rw [hrest]
        rfl
      case isFalse hc =>
        rw [if_neg hc, htext] at h
        cases lines with
        | nil =>
            have hboth : [] ++ [c :: remainder] = init ++ [last] := h
            obtain ⟨rfl, hlast⟩ := List.append_inj' hboth rfl
            cases hlast
            rw [hrest, List.nil_append, List.nil_append, List.cons_append,
              List.splitOn_cons_eq_if_modifyHead, if_neg hc]
        | cons line lines =>
            have hboth : ((c :: line) :: lines) ++ [remainder]
                = init ++ [last] := h
            obtain ⟨rfl, hlast⟩ := List.append_inj' hboth rfl
            cases hlast
            rw [hrest]
            rfl

theorem splitOn_append_lines (text rest : Chars) :
    (text ++ rest).splitOn '\n' = (completeLines text).lines
      ++ ((completeLines text).remainder ++ rest).splitOn '\n' :=
  splitOn_append_last (splitOn_eq text) rest

-- ===================================== lines

variable {text rest : Chars}

/-- A line too long among those that are complete. -/
theorem linesOf_stopped
    (h : ((completeLines text).lines.any (tooLong maximumLineLength)) = true) :
    linesOf maximumLineLength (text ++ rest)
      = ((yieldLines maximumLineLength (completeLines text).lines).1,
        .lineTooLong) := by
  unfold linesOf
  rw [splitOn_append_lines, List.any_append, h, Bool.true_or, if_pos rfl,
    yieldLines_eq, List.takeWhile_append, if_neg]
  intro hlength
  obtain ⟨line, hline, hlong⟩ := List.any_eq_true.mp h
  have hprefix := List.takeWhile_prefix (l := (completeLines text).lines)
    fun line => !tooLong maximumLineLength line
  rw [← hprefix.eq_of_length hlength] at hline
  have hfits := List.mem_takeWhile_imp hline
  rw [hlong] at hfits
  cases hfits

/-- Lines that fit are yielded before the others. -/
theorem linesOf_append
    (h : ((completeLines text).lines.any (tooLong maximumLineLength)) = false) :
    linesOf maximumLineLength (text ++ rest)
      = ((yieldLines maximumLineLength (completeLines text).lines).1
          ++ (linesOf maximumLineLength
            ((completeLines text).remainder ++ rest)).1,
        (linesOf maximumLineLength
          ((completeLines text).remainder ++ rest)).2) := by
  have hfits : ∀ line ∈ (completeLines text).lines,
      (!tooLong maximumLineLength line) = true := fun line hline => by
    have hnot := List.any_eq_false.mp h line hline
    simpa using hnot
  unfold linesOf
  rw [splitOn_append_lines, List.any_append, h, Bool.false_or, yieldLines_eq,
    List.takeWhile_append_of_pos hfits, List.filter_append,
    List.takeWhile_eq_self_iff.mpr hfits]

/-- The beginning of a line that is too long ends the stream. -/
theorem linesOf_tooLong (hline : '\n' ∉ text)
    (h : tooLong maximumLineLength text = true) :
    linesOf maximumLineLength (text ++ rest) = ([], .lineTooLong) := by
  obtain ⟨first, others, hsplit⟩ :=
    List.exists_cons_of_ne_nil (List.splitOn_ne_nil '\n' rest)
  have hlong := tooLong_append h first
  unfold linesOf
  rw [splitOn_append hline, hsplit, List.modifyHead_cons,
    List.takeWhile_cons_of_neg (by simp [hlong]), List.any_cons, hlong]
  rfl

/-- A line that fits and ends the text. -/
theorem linesOf_last (hline : '\n' ∉ text)
    (h : tooLong maximumLineLength text = false) :
    linesOf maximumLineLength text
      = (if nonBlank text then [text] else [], .returned) := by
  unfold linesOf
  rw [List.splitOn_eq_singleton hline,
    List.takeWhile_cons_of_pos (by simp [h]), List.takeWhile_nil,
    List.filter_cons, List.filter_nil, List.any_cons, h, List.any_nil]
  rfl

theorem remainder_noLine (text : Chars) :
    '\n' ∉ (completeLines text).remainder := by
  refine mem_splitOn (s := text) ?_
  rw [splitOn_eq]
  exact List.mem_append_right _ (List.mem_singleton_self _)

/-- What is yielded of a buffer, whatever follows. -/
theorem readBuffer_spec (text rest : Chars) :
    (∃ yielded, readBuffer maximumLineLength text = (yielded, none)
      ∧ linesOf maximumLineLength (text ++ rest) = (yielded, .lineTooLong))
    ∨ ∃ yielded buffer, readBuffer maximumLineLength text
        = (yielded, some buffer)
      ∧ '\n' ∉ buffer ∧ tooLong maximumLineLength buffer = false
      ∧ linesOf maximumLineLength (text ++ rest)
        = (yielded ++ (linesOf maximumLineLength (buffer ++ rest)).1,
          (linesOf maximumLineLength (buffer ++ rest)).2) := by
  have hread : readBuffer maximumLineLength text
      = ((yieldLines maximumLineLength (completeLines text).lines).1,
        if (!(completeLines text).lines.any (tooLong maximumLineLength))
            && !tooLong maximumLineLength (completeLines text).remainder then
          some (completeLines text).remainder
        else none) := by
    unfold readBuffer
    dsimp only
    rw [yieldLines_eq]
  have hline := remainder_noLine text
  cases hany : (completeLines text).lines.any (tooLong maximumLineLength) with
  | true =>
      rw [hany] at hread
      exact Or.inl ⟨_, hread, linesOf_stopped hany⟩
  | false =>
      have happend : linesOf maximumLineLength (text ++ rest) = _ :=
        linesOf_append hany
      cases hlong :
        tooLong maximumLineLength (completeLines text).remainder with
      | true =>
          rw [hany, hlong] at hread
          rw [linesOf_tooLong hline hlong, List.append_nil] at happend
          exact Or.inl ⟨_, hread, happend⟩
      | false =>
          rw [hany, hlong] at hread
          exact Or.inr ⟨_, _, hread, hline, hlong, happend⟩

/-- The loop reads the lines of the text that is left. -/
theorem readFrom_eq (decoder : Utf8.Decoder) (buffer : Chars)
    (chunks : List Bytes) :
    readFrom maximumLineLength decoder buffer chunks
      = linesOf maximumLineLength (buffer ++ decoder.text chunks.flatten) := by
  induction chunks generalizing decoder buffer with
  | nil =>
      show readFrom maximumLineLength decoder buffer []
        = linesOf maximumLineLength (buffer ++ decoder.flush)
      unfold readFrom
      rcases readBuffer_spec (buffer ++ decoder.flush) []
        with ⟨yielded, hread, hlines⟩
          | ⟨yielded, last, hread, hline, hfits, hlines⟩
      · rw [List.append_nil] at hlines
        rw [hread, hlines]
      · rw [List.append_nil, List.append_nil, linesOf_last hline hfits]
          at hlines
        rw [hread, hlines]
        dsimp only
        split
        case isTrue => rfl
        case isFalse => rw [List.append_nil]
  | cons value chunks ih =>
      rw [List.flatten_cons, Utf8.Decoder.text_append, ← List.append_assoc]
      unfold readFrom
      rcases readBuffer_spec (buffer ++ (decoder.decode value).1)
          ((decoder.decode value).2.text chunks.flatten)
        with ⟨yielded, hread, hlines⟩ | ⟨yielded, last, hread, -, -, hlines⟩
      · rw [hlines]
        dsimp only
        rw [hread]
      · rw [hlines]
        dsimp only
        rw [hread]
        dsimp only
        rw [ih]

/-- The lines of a stream are those of its text, however it is cut. -/
theorem readNdjsonLines_eq (maximumLineLength : Nat) (chunks : List Bytes) :
    readNdjsonLines maximumLineLength chunks
        = linesOf maximumLineLength (Utf8.Decoder.text {} chunks.flatten)
      ∧ readNdjsonLines maximumLineLength chunks
        = readNdjsonLines maximumLineLength [chunks.flatten] := by
  have hall : ∀ chunks, readNdjsonLines maximumLineLength chunks
      = linesOf maximumLineLength (Utf8.Decoder.text {} chunks.flatten) :=
    fun chunks => readFrom_eq {} [] chunks
  refine ⟨hall chunks, ?_⟩
  rw [hall chunks, hall [chunks.flatten], List.flatten_singleton]

end StreamBrew.Alert.Ndjson
