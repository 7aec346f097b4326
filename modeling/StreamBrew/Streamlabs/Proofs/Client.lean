/-
What a reading of a Streamlabs history gives: its donations, its
rejected rows and its checkpoint.

A page is taken row by row up to that of the checkpoint (`rows_eq`), so
a reading adds the valid and the rejected rows of what it has taken, and
takes its own checkpoint from the first row of all (`page_eq`). The rest
are inductions over the pages.
-/
import StreamBrew.Streamlabs.Client

namespace StreamBrew.Streamlabs

variable {r : Reading} {rows : List DecodedDonation} {history : History}

variable {Json : Type} {codec : RowCodec Json}

-- ====================================== rows

/-- The donations of the valid rows. -/
def donated (rows : List DecodedDonation) : List Donation :=
  rows.filterMap (·.donation.toOption)

/-- The rows that are rejected. -/
def refused (rows : List DecodedDonation) : List RejectedDonation :=
  rows.filterMap fun row =>
    match row.donation with
    | .error error => some { sourceDonationID := row.id, error }
    | .ok _ => none

theorem donated_append (rows more : List DecodedDonation) :
    donated (rows ++ more) = donated rows ++ donated more :=
  List.filterMap_append

theorem refused_append (rows more : List DecodedDonation) :
    refused (rows ++ more) = refused rows ++ refused more :=
  List.filterMap_append

theorem mem_donated {d : Donation} :
    d ∈ donated rows ↔ ∃ row ∈ rows, row.donation = .ok d := by
  unfold donated
  rw [List.mem_filterMap]
  constructor
  · rintro ⟨row, hrow, hd⟩
    cases hdonation : row.donation with
    | error e => rw [hdonation] at hd; cases hd
    | ok donation =>
        rw [hdonation] at hd
        cases hd
        exact ⟨row, hrow, hdonation⟩
  · rintro ⟨row, hrow, hd⟩
    exact ⟨row, hrow, by rw [hd]; rfl⟩

/-- A valid donation has the id that it is read with, and has one. -/
theorem RawDonation.donation_eq_ok {raw : RawDonation} {d : Donation}
    (h : raw.donation = .ok d) :
    d.sourceDonationID = raw.donationID ∧ raw.donationID ≠ "" := by
  unfold RawDonation.donation at h
  split at h
  case isTrue => cases h
  case isFalse hid =>
    split at h
    case h_1 => cases h
    case h_2 =>
      split at h
      case h_1 => cases h
      case h_2 =>
        cases h
        exact ⟨rfl, fun he => hid (Or.inl he)⟩

/-- A row that is valid has the id of its donation. -/
def DecodedDonation.Sound (row : DecodedDonation) : Prop :=
  ∀ d, row.donation = .ok d → d.sourceDonationID = row.id ∧ row.id ≠ ""

theorem sound_decodeDonation (codec : RowCodec Json) (body : Json) :
    (decodeDonation codec body).Sound := by
  intro d hd
  unfold decodeDonation at hd ⊢
  cases hid : codec.identity body with
  | none => rw [hid] at hd; cases hd
  | some id =>
      cases hraw : codec.fields body with
      | none => simp only [hid, hraw] at hd; cases hd
      | some raw =>
          simp only [hid, hraw] at hd ⊢
          exact RawDonation.donation_eq_ok hd

-- ===================================== pages

namespace Reading

/-- A reading after the rows, with none of them its checkpoint. -/
def taken (rows : List DecodedDonation) (r : Reading) : Reading :=
  { r with
    donations := r.donations ++ donated rows
    rejected := r.rejected ++ refused rows }

theorem taken_nil (r : Reading) : r.taken [] = r := by
  simp only [taken, donated, refused, List.filterMap_nil, List.append_nil]

theorem taken_cons (row : DecodedDonation) (rest : List DecodedDonation)
    (r : Reading) : r.taken (row :: rest) = (r.row row).taken rest := by
  unfold Reading.row
  cases hrow : row.donation with
  | error e =>
      simp only [taken, donated, refused, List.filterMap_cons, hrow,
        Except.toOption, List.append_assoc, List.singleton_append]
  | ok d =>
      simp only [taken, donated, refused, List.filterMap_cons, hrow,
        Except.toOption, List.append_assoc, List.singleton_append]

theorem row_checkpoint (row : DecodedDonation) (r : Reading) :
    (r.row row).checkpoint = r.checkpoint := by
  unfold Reading.row
  split <;> rfl

/-- The rows before that of the checkpoint. -/
def unread (checkpoint : Option String) (rows : List DecodedDonation) :
    List DecodedDonation :=
  rows.takeWhile fun row => checkpoint ≠ some row.id

/-- A page is taken up to the checkpoint. -/
theorem rows_eq (rows : List DecodedDonation) (r : Reading) :
    r.rows rows = (r.taken (unread r.checkpoint rows),
      rows.any fun row => r.checkpoint = some row.id) := by
  induction rows generalizing r with
  | nil => simp only [Reading.rows, unread, List.takeWhile_nil, taken_nil,
      List.any_nil]
  | cons row rest ih =>
      unfold Reading.rows
      split
      case isTrue h =>
        simp only [unread, List.takeWhile_cons, h, List.any_cons,
          ne_eq, not_true, decide_false, decide_true, Bool.true_or,
          Bool.false_eq_true, if_false, taken_nil]
      case isFalse h =>
        rw [ih, row_checkpoint]
        simp only [unread, List.takeWhile_cons, h, List.any_cons, ne_eq,
          not_false_eq_true, decide_true, decide_false, Bool.false_or,
          if_true, taken_cons]

/-- The checkpoint of a reading once it has a page with this first
row. -/
def headed (head : String) (r : Reading) : Reading :=
  { r with newCheckpoint := r.newCheckpoint <|> some head }

/-- A page that is not empty: it is refused for want of an id, ends the
reading at the checkpoint, or is taken as a whole. -/
theorem page_eq (head : DecodedDonation) (rest : List DecodedDonation)
    (r : Reading) :
    r.page (head :: rest) =
      if r.newCheckpoint = none ∧ head.id = "" then
        .failed .missingDonationID
      else if (head :: rest).any fun row => r.checkpoint = some row.id then
        .done (((r.headed head.id).taken
          (unread r.checkpoint (head :: rest))).history
            (r.newCheckpoint <|> some head.id))
      else
        ((r.headed head.id).taken (head :: rest)).turn
          ((head :: rest).getLast (by simp)).id := by
  have hrows := rows_eq (head :: rest) (r.headed head.id)
  have hcheckpoint : (r.headed head.id).checkpoint = r.checkpoint := rfl
  rw [hcheckpoint] at hrows
  have hheaded : ({ r with
      newCheckpoint := (r.newCheckpoint <|> some head.id) } : Reading)
      = r.headed head.id :=
    rfl
  unfold Reading.page
  simp only [hheaded, hrows]
  cases hany : (head :: rest).any fun row =>
      decide (r.checkpoint = some row.id) with
  | true => rfl
  | false =>
      have hall : unread r.checkpoint (head :: rest) = head :: rest := by
        unfold unread
        rw [List.takeWhile_eq_self_iff]
        intro row hrow
        have hne := List.any_eq_false.mp hany row hrow
        simpa using hne
      rw [hall]
      rfl

/-- How a page with rows ends: it is refused for want of an id, ends the
reading at the row of the checkpoint, or is taken as a whole. -/
theorem page_cases (head : DecodedDonation) (rest : List DecodedDonation)
    (r : Reading) :
    r.page (head :: rest) = .failed .missingDonationID
    ∨ (r.newCheckpoint = none → head.id ≠ "")
      ∧ ((∃ row ∈ head :: rest, r.checkpoint = some row.id)
          ∧ r.page (head :: rest)
            = .done (((r.headed head.id).taken
              (unread r.checkpoint (head :: rest))).history
                (r.newCheckpoint <|> some head.id))
        ∨ (∀ row ∈ head :: rest, r.checkpoint ≠ some row.id)
          ∧ r.page (head :: rest)
            = ((r.headed head.id).taken (head :: rest)).turn
              ((head :: rest).getLast (by simp)).id) := by
  rw [page_eq]
  by_cases hid : r.newCheckpoint = none ∧ head.id = ""
  · exact Or.inl (if_pos hid)
  · rw [if_neg hid]
    refine Or.inr ⟨fun hnone he => hid ⟨hnone, he⟩, ?_⟩
    by_cases hmet : ∃ row ∈ head :: rest, r.checkpoint = some row.id
    · obtain ⟨row, hrow, he⟩ := hmet
      exact Or.inl ⟨⟨row, hrow, he⟩, if_pos (List.any_eq_true.mpr
        ⟨row, hrow, decide_eq_true he⟩)⟩
    · refine Or.inr ⟨fun row hrow he => hmet ⟨row, hrow, he⟩,
        if_neg fun hany => hmet ?_⟩
      obtain ⟨row, hrow, he⟩ := List.any_eq_true.mp hany
      exact ⟨row, hrow, of_decide_eq_true he⟩

/-- The cursor moves on to a row that has an id. -/
theorem turn_eq_next {last : String} {next : Reading}
    (h : r.turn last = .next next) :
    last ≠ "" ∧ next = { r with
      before := last
      seenCursors := last :: r.seenCursors
      pageNumber := r.pageNumber + 1 } := by
  unfold Reading.turn at h
  split at h
  case isTrue => cases h
  case isFalse hlast =>
    split at h
    case isTrue => cases h
    case isFalse =>
      split at h
      case isTrue => cases h
      case isFalse =>
        cases h
        exact ⟨hlast, rfl⟩

theorem turn_ne_done {last : String} :
    r.turn last ≠ .done history := by
  unfold Reading.turn
  intro h
  split at h
  case isTrue => cases h
  case isFalse =>
    split at h
    case isTrue => cases h
    case isFalse =>
      split at h
      case isTrue => cases h
      case isFalse => cases h

end Reading

-- ================================== readings

/-- The newest row of a history: the first of its first page. -/
def newest (codec : RowCodec Json) :
    List (Option (List Json)) → Option DecodedDonation
  | some (body :: _) :: _ => some (decodeDonation codec body)
  | _ => none

/-- The rows of the pages before the first empty one. -/
def offered (codec : RowCodec Json) :
    List (Option (List Json)) → List DecodedDonation
  | some (body :: rest) :: pages =>
      (body :: rest).map (decodeDonation codec) ++ offered codec pages
  | _ => []

/-- The rows that a reading comes to: those before the row of its
checkpoint. -/
def rowsRead (codec : RowCodec Json) (checkpoint : Option String)
    (pages : List (Option (List Json))) : List DecodedDonation :=
  Reading.unread checkpoint (offered codec pages)

theorem offered_cons (data : List Json)
    (pages : List (Option (List Json))) (h : data ≠ []) :
    offered codec (some data :: pages)
      = data.map (decodeDonation codec) ++ offered codec pages := by
  cases data with
  | nil => exact absurd rfl h
  | cons body rest => rfl

/-- Rows that are all before the checkpoint are read as a whole. -/
theorem unread_append {checkpoint : Option String}
    {more : List DecodedDonation}
    (h : ∀ row ∈ rows, checkpoint ≠ some row.id) :
    Reading.unread checkpoint (rows ++ more)
      = rows ++ Reading.unread checkpoint more := by
  unfold Reading.unread
  rw [List.takeWhile_append_of_pos]
  intro row hrow
  exact decide_eq_true (h row hrow)

/-- What comes after the row of the checkpoint is not read. -/
theorem unread_append_met {checkpoint : Option String}
    {more : List DecodedDonation}
    (h : ∃ row ∈ rows, checkpoint = some row.id) :
    Reading.unread checkpoint (rows ++ more)
      = Reading.unread checkpoint rows := by
  induction rows with
  | nil =>
      obtain ⟨row, hrow, -⟩ := h
      exact absurd hrow List.not_mem_nil
  | cons head rest ih =>
      by_cases hhead : checkpoint = some head.id
      · simp only [Reading.unread, List.cons_append, List.takeWhile_cons,
          hhead, ne_eq, not_true, decide_false, Bool.false_eq_true,
          if_false]
      · obtain ⟨row, hrow, he⟩ := h
        have hrest : ∃ row ∈ rest, checkpoint = some row.id := by
          rcases List.mem_cons.mp hrow with rfl | hrow
          · exact absurd he hhead
          · exact ⟨row, hrow, he⟩
        have ih := ih hrest
        simp only [Reading.unread] at ih
        simp only [Reading.unread, List.cons_append, List.takeWhile_cons,
          hhead, ne_eq, not_false_eq_true, decide_true, if_true, ih]

/-- What a reading has come to, given the first row that it was offered,
and the rows that it has read. -/
structure Reading.Result (r : Reading) (first : Option DecodedDonation)
    (rows : List DecodedDonation) (history : History) : Prop where
  checkpoint : history.checkpoint
    = ((r.newCheckpoint <|> first.map (·.id)) <|> r.checkpoint)
  donations : history.donations = r.donations ++ donated rows
  rejected : history.rejected = r.rejected ++ refused rows

/-- A reading that ends at a page; where the page has rows, one of them
is that of the checkpoint. -/
theorem Reading.page_done (h : r.page rows = .done history) :
    r.Result rows.head? (unread r.checkpoint rows) history
      ∧ (rows ≠ [] → ∃ row ∈ rows, r.checkpoint = some row.id) := by
  cases rows with
  | nil =>
      cases h
      refine ⟨⟨?_, ?_, ?_⟩, fun hne => absurd rfl hne⟩
      · show (r.newCheckpoint <|> r.checkpoint) = _
        cases r.newCheckpoint <;> rfl
      · exact (List.append_nil _).symm
      · exact (List.append_nil _).symm
  | cons head rest =>
      rcases Reading.page_cases head rest r with
        hpage | ⟨-, ⟨hmet, hpage⟩ | ⟨-, hpage⟩⟩
      · rw [hpage] at h
        cases h
      · rw [hpage] at h
        injection h with h
        subst h
        refine ⟨⟨?_, rfl, rfl⟩, fun _ => hmet⟩
        show (r.newCheckpoint <|> some head.id) = _
        cases r.newCheckpoint <;> rfl
      · rw [hpage] at h
        exact absurd h Reading.turn_ne_done

/-- A reading that goes on after a page has taken all of it. -/
theorem Reading.page_next {next : Reading} (h : r.page rows = .next next) :
    ∃ head rest, ∃ hrows : rows = head :: rest,
      (r.newCheckpoint = none → head.id ≠ "")
      ∧ (∀ row ∈ rows, r.checkpoint ≠ some row.id)
      ∧ next.before = (rows.getLast (by simp [hrows])).id
      ∧ next.before ≠ ""
      ∧ next.checkpoint = r.checkpoint
      ∧ next.newCheckpoint = (r.newCheckpoint <|> some head.id)
      ∧ next.donations = r.donations ++ donated rows
      ∧ next.rejected = r.rejected ++ refused rows := by
  cases rows with
  | nil => cases h
  | cons head rest =>
      rcases Reading.page_cases head rest r with
        hpage | ⟨hid, ⟨-, hpage⟩ | ⟨hfree, hpage⟩⟩
      · rw [hpage] at h
        cases h
      · rw [hpage] at h
        cases h
      · rw [hpage] at h
        obtain ⟨hlast, rfl⟩ := Reading.turn_eq_next h
        exact ⟨head, rest, rfl, hid, hfree, rfl, hlast, rfl, rfl, rfl,
          rfl⟩

/-- A reading that ends at a page with rows has met its checkpoint. -/
theorem Reading.page_met {head : DecodedDonation}
    {rest : List DecodedDonation}
    (h : r.page (head :: rest) = .done history) :
    (r.newCheckpoint = none → head.id ≠ "")
      ∧ history.checkpoint = (r.newCheckpoint <|> some head.id)
      ∧ ∃ before row after, head :: rest = before ++ row :: after
        ∧ r.checkpoint = some row.id
        ∧ history.donations = r.donations ++ donated before := by
  rcases Reading.page_cases head rest r with
    hpage | ⟨hid, ⟨⟨met, hmem, hmet⟩, hpage⟩ | ⟨-, hpage⟩⟩
  · rw [hpage] at h
    cases h
  · rw [hpage] at h
    injection h with h
    subst h
    refine ⟨hid, rfl, ?_⟩
    have hsplit := (List.takeWhile_append_dropWhile
      (p := fun row : DecodedDonation => decide
        (r.checkpoint ≠ some row.id)) (l := head :: rest)).symm
    cases hdrop : (head :: rest).dropWhile fun row =>
        decide (r.checkpoint ≠ some row.id) with
    | nil =>
        have hne := List.dropWhile_eq_nil_iff.mp hdrop met hmem
        exact absurd hmet (of_decide_eq_true hne)
    | cons row after =>
        rw [hdrop] at hsplit
        refine ⟨_, row, after, hsplit, ?_, rfl⟩
        have hhead := List.head?_dropWhile_not (fun row =>
          decide (r.checkpoint ≠ some row.id)) (head :: rest)
        rw [hdrop] at hhead
        simpa using hhead
  · rw [hpage] at h
    exact absurd h Reading.turn_ne_done

/-- A reading gives the rows that it comes to, each either as a donation
or as a rejected row. -/
theorem Reading.run_ok {pages : List (Option (List Json))}
    (h : r.run codec pages = some (.ok history)) :
    r.Result (newest codec pages) (rowsRead codec r.checkpoint pages)
      history := by
  induction pages generalizing r with
  | nil => cases h
  | cons page pages ih =>
      cases page with
      | none => cases h
      | some data =>
          have hnewest : newest codec (some data :: pages)
              = (data.map (decodeDonation codec)).head? := by
            cases data <;> rfl
          rw [hnewest]
          unfold Reading.run at h
          cases hpage : r.page (data.map (decodeDonation codec)) with
          | failed error => simp only [hpage] at h; cases h
          | done final =>
              simp only [hpage] at h
              cases h
              obtain ⟨hresult, hmet⟩ := Reading.page_done hpage
              have hread : rowsRead codec r.checkpoint (some data :: pages)
                  = unread r.checkpoint
                    (data.map (decodeDonation codec)) := by
                by_cases hdata : data = []
                · subst hdata
                  rfl
                · unfold rowsRead
                  rw [offered_cons data pages hdata]
                  refine unread_append_met (hmet fun he => hdata ?_)
                  exact List.map_eq_nil_iff.mp he
              rw [hread]
              exact hresult
          | next next =>
              simp only [hpage] at h
              have hrest := ih h
              obtain ⟨head, rest, hrows, -, hunmet, -, -, hcheckpoint, hnew,
                hdonations, hrejected⟩ := Reading.page_next hpage
              have hdata : data ≠ [] := by
                intro he
                rw [he] at hrows
                cases hrows
              have hread : rowsRead codec r.checkpoint (some data :: pages)
                  = data.map (decodeDonation codec)
                    ++ rowsRead codec r.checkpoint pages := by
                unfold rowsRead
                rw [offered_cons data pages hdata]
                exact unread_append hunmet
              rw [hcheckpoint] at hrest
              constructor
              case checkpoint =>
                rw [hrest.checkpoint, hnew, hcheckpoint, hrows]
                cases r.newCheckpoint <;> rfl
              case donations =>
                rw [hrest.donations, hdonations, hread, donated_append,
                  List.append_assoc]
              case rejected =>
                rw [hrest.rejected, hrejected, hread, refused_append,
                  List.append_assoc]

/-- GetDonations of the client: the checkpoint is the id of the newest
row, and the donations and the rejected rows are those of the rows
read. -/
theorem getDonations_ok {checkpoint : Option String}
    {pages : List (Option (List Json))}
    (h : getDonations codec checkpoint pages = some (.ok history)) :
    history.checkpoint = ((newest codec pages).map (·.id) <|> checkpoint)
      ∧ history.donations = donated (rowsRead codec checkpoint pages)
      ∧ history.rejected = refused (rowsRead codec checkpoint pages) := by
  have hresult := Reading.run_ok h
  exact ⟨hresult.checkpoint, hresult.donations, hresult.rejected⟩

end StreamBrew.Streamlabs
