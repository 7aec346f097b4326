/-
Recovery without a gap: what a listener has passed on of its stream.

`Good` is what holds of a session whatever its connection does: up to the
retained position, every publication with a donation that is owed since
the last reply that did not recover (`Start.Owes`) was passed on, and each
call of `emit` came after those before it in the stream. One publication
keeps it when all before it were passed on (`Good.emits`), so does the
list of a reply (`Good.publications`), and a reply leaves nothing owed of
its log (`Good.replied`).
-/
import StreamBrew.DonationAlerts.Stream
import StreamBrew.DonationAlerts.Proofs.Socket
import StreamBrew.Lib.History

namespace StreamBrew.DonationAlerts.Socket

open Pass History

variable {Json Donation : Type} {codec : Codec Json Donation}
variable {emit : List Donation → Donation → Bool}
variable {s t : Session Json Donation}
variable {publication : SocketPublication Json}
variable {error : Option SessionError}

-- ====================================== logs

/-- The logs of a server are in order. -/
structure Logs (codec : Codec Json Donation)
    (log : String → List (Published Json)) : Prop where
  sorted : ∀ epoch, (log epoch).Pairwise (·.offset < ·.offset)
  offset : ∀ epoch, ∀ x ∈ log epoch, ∀ publication,
    codec.publication x.document = some publication →
      publication.offset = x.offset
  positive : ∀ epoch, ∀ x ∈ log epoch, 0 < x.offset
  unnamed : log "" = []

section Order

variable {log : List (Published Json)} {x y : Published Json}

theorem offset_zero : Socket.offset 0 0 = 0 := by decide

theorem offset_le_top (hsorted : log.Pairwise (·.offset < ·.offset))
    (hx : x ∈ log) : x.offset ≤ top log := by
  rcases List.eq_nil_or_concat log with rfl | ⟨before, last, rfl⟩
  · cases hx
  · rw [List.concat_eq_append] at hsorted hx ⊢
    have htop : top (before ++ [last]) = last.offset := by
      simp [top]
    rw [htop]
    rcases List.mem_append.mp hx with hx | hx
    · exact ((List.pairwise_append.mp hsorted).2.2 x hx last
        List.mem_cons_self).le
    · rw [List.mem_singleton.mp hx]

theorem eq_of_offset (hsorted : log.Pairwise (·.offset < ·.offset))
    (hx : x ∈ log) (hy : y ∈ log) (h : x.offset = y.offset) : x = y := by
  have hnodup : (log.map (·.offset)).Nodup :=
    List.pairwise_map.mpr (hsorted.imp Nat.ne_of_lt)
  exact List.inj_on_of_nodup_map hnodup hx hy h

/-- What a sorted log has before an entry. -/
theorem mem_before {before after : List (Published Json)}
    (hsorted : (before ++ x :: after).Pairwise (·.offset < ·.offset))
    (hy : y ∈ before ++ x :: after) (hlt : y.offset < x.offset) :
    y ∈ before := by
  rcases List.mem_append.mp hy with hy | hy
  · exact hy
  · have hafter := (List.pairwise_append.mp hsorted).2.1
    rcases List.mem_cons.mp hy with rfl | hy
    · exact absurd hlt (lt_irrefl _)
    · exact absurd hlt (List.rel_of_pairwise_cons hafter hy).not_gt

/-- What is not beyond the end was there before. -/
theorem mem_of_le_top {new : List (Published Json)}
    (hsorted : (log ++ new).Pairwise (·.offset < ·.offset))
    (hy : y ∈ log ++ new) (hle : y.offset ≤ top log)
    (hpositive : 0 < y.offset) : y ∈ log := by
  rcases List.mem_append.mp hy with hold | hnew
  · exact hold
  · rcases List.eq_nil_or_concat log with rfl | ⟨before, last, rfl⟩
    · exact absurd hle hpositive.not_ge
    · rw [List.concat_eq_append] at hsorted hle
      have hlt := (List.pairwise_append.mp hsorted).2.2 last
        (List.mem_append_right _ List.mem_cons_self) y hnew
      simp only [top, List.getLast?_concat, Option.map_some,
        Option.getD_some] at hle
      exact absurd hlt hle.not_gt

theorem exists_of_documents {documents : List Json}
    (h : ∀ d ∈ documents, d ∈ log.map (·.document)) :
    ∃ xs : List (Published Json), documents = xs.map (·.document)
      ∧ ∀ x ∈ xs, x ∈ log := by
  induction documents with
  | nil => exact ⟨[], rfl, by simp⟩
  | cons d rest ih =>
      obtain ⟨x, hx, rfl⟩ := List.mem_map.mp (h d List.mem_cons_self)
      obtain ⟨xs, rfl, hxs⟩ := ih fun e he => h e (List.mem_cons_of_mem _ he)
      exact ⟨x :: xs, rfl, List.forall_mem_cons.mpr ⟨hx, hxs⟩⟩

theorem top_append : top (log ++ [x]) = x.offset := by
  simp [top]

end Order

theorem Emitted.mono {calls more : List (Call Json Donation)}
    {epoch : String} {x : Published Json}
    (h : Emitted codec calls epoch x) (hmore : calls <+: more) :
    Emitted codec more epoch x := by
  obtain ⟨call, hcall, hrest⟩ := h
  exact ⟨call, hmore.subset hcall, hrest⟩

-- ====================================== good

/-- A call of `emit`, for a publication after the last reply that did not
recover or made since it, came after those for all publications before
it that are owed. -/
def InOrder (codec : Codec Json Donation) (log : List (Published Json))
    (start : Start Json) (before : List (Call Json Donation))
    (call : Call Json Donation) : Prop :=
  call.epoch = start.position.epoch →
    start.position.offset < call.publication.offset
        ∨ start.calls ≤ before.length →
      ∀ x ∈ log, x.Valid codec → start.Owes codec x →
        x.offset < call.publication.offset →
          Emitted codec before start.position.epoch x

/-- The session stands in a stream of the server, and not beyond its end. -/
structure Good (codec : Codec Json Donation)
    (log : String → List (Published Json)) (s : Session Json Donation) :
    Prop where
  stream : s.start.position.epoch = s.position.epoch
  known : s.position.epoch = ""
    ∨ s.position.offset ≤ top (log s.position.epoch)
  calls : ∀ call ∈ s.calls, call.epoch = ""
    ∨ ∃ x ∈ log call.epoch, codec.publication x.document
      = some call.publication
  covered : ∀ x ∈ log s.position.epoch, x.Valid codec →
    s.start.Owes codec x → x.offset ≤ s.position.offset →
      Emitted codec s.calls s.position.epoch x
  ordered :
    Justified (InOrder codec (log s.start.position.epoch) s.start) s.calls

section Good

variable {log : String → List (Published Json)} {x : Published Json}

/-- All publications with a donation that the stream has after `start`
and before some position were passed on. -/
def Before (codec : Codec Json Donation)
    (log : String → List (Published Json)) (s : Session Json Donation)
    (offset : Nat) : Prop :=
  ∀ y ∈ log s.position.epoch, y.Valid codec → s.start.Owes codec y →
    y.offset < offset → Emitted codec s.calls s.position.epoch y

/-- A call of emit, in the order of the stream. -/
theorem Good.call (hlogs : Logs codec log) (hgood : Good codec log s)
    (hx : s.position.epoch ≠ "" → x ∈ log s.position.epoch)
    (hp : codec.publication x.document = some publication)
    (hbefore : Before codec log s x.offset) (donation : Donation)
    (accepted : Bool) :
    Good codec log (s.call publication donation accepted) where
  stream := hgood.stream
  known := hgood.known
  calls := by
    intro call hcall
    rcases List.mem_append.mp hcall with hcall | hcall
    · exact hgood.calls call hcall
    · rw [List.mem_singleton.mp hcall]
      by_cases hepoch : s.position.epoch = ""
      · exact .inl hepoch
      · exact .inr ⟨x, hx hepoch, hp⟩
  covered := fun y hy hvalid hstart hle =>
    (hgood.covered y hy hvalid hstart hle).mono (List.prefix_append _ _)
  ordered := by
    refine hgood.ordered.snoc ?_
    intro hepoch hstart y hy hvalid hy_start hlt
    have hepoch' : s.start.position.epoch = s.position.epoch := hgood.stream
    rw [hepoch'] at hy ⊢
    by_cases hnamed : s.position.epoch = ""
    · rw [hnamed, hlogs.unnamed] at hy
      cases hy
    · have hoffset := hlogs.offset _ x (hx hnamed) publication hp
      exact hbefore y hy hvalid hy_start (hlt.trans_eq hoffset)

/-- The position moves over a publication that is not owed any more. -/
theorem Good.advance (hlogs : Logs codec log) (hgood : Good codec log s)
    (hx : s.position.epoch ≠ "" → x ∈ log s.position.epoch)
    (hp : codec.publication x.document = some publication)
    (hbefore : Before codec log s x.offset)
    (hemitted : s.position.epoch ≠ "" → x.Valid codec →
      s.start.Owes codec x →
        Emitted codec s.calls s.position.epoch x) :
    Good codec log (advancePosition publication s) where
  stream := by rw [advance_start, advance_epoch, hgood.stream]
  known := by
    rw [advance_epoch]
    by_cases hepoch : s.position.epoch = ""
    · exact .inl hepoch
    · refine .inr ?_
      unfold advancePosition
      split
      · exact hgood.known.resolve_left hepoch
      · rw [setPosition_position, at_offset,
          hlogs.offset _ x (hx hepoch) publication hp]
        exact offset_le_top (hlogs.sorted _) (hx hepoch)
  calls := by
    rw [advance_calls]
    exact hgood.calls
  covered := by
    rw [advance_epoch, advance_start, advance_calls]
    intro y hy hvalid hstart hle
    by_cases hepoch : s.position.epoch = ""
    · rw [hepoch, hlogs.unnamed] at hy
      cases hy
    unfold advancePosition at hle
    split at hle
    · exact hgood.covered y hy hvalid hstart hle
    · rw [setPosition_position, at_offset,
        hlogs.offset _ x (hx hepoch) publication hp] at hle
      rcases hle.lt_or_eq with hlt | heq
      · exact hbefore y hy hvalid hstart hlt
      · have hyx := eq_of_offset (hlogs.sorted _) hy (hx hepoch) heq
        subst hyx
        exact hemitted hepoch hvalid hstart
  ordered := by
    rw [advance_start, advance_calls]
    exact hgood.ordered

/-- What handling a publication of the stream comes to, when all before it
were passed on. -/
structure Handled (codec : Codec Json Donation)
    (log : String → List (Published Json)) (s t : Session Json Donation)
    (x : Published Json) (error : Option SessionError) : Prop where
  good : Good codec log t
  frame : s.Extends t
  start : t.start = s.start
  emitted : error = none → s.position.epoch ≠ "" → x.Valid codec →
    Emitted codec t.calls s.position.epoch x

/-- A publication is emitted, or the session ends before it. -/
theorem Good.emits (hlogs : Logs codec log) (hgood : Good codec log s)
    (hx : s.position.epoch ≠ "" → x ∈ log s.position.epoch)
    (hp : codec.publication x.document = some publication)
    (hbefore : Before codec log s x.offset)
    (h : emitPublication codec emit s publication = (t, error)) :
    Handled codec log s t x error := by
  have hextends := emit_extends h
  have hcases := emit_cases codec emit s publication
  rw [h] at hcases
  have hnot {data : Option Json} (hdata : publication.data = data)
      (hdonation : ∀ value, data = some value → codec.donation value = none) :
      ¬ x.Valid codec := by
    rintro ⟨publication', value, donation, hp', hvalue, hsome⟩
    rw [hp] at hp'
    cases hp'
    rw [hdonation value (hdata ▸ hvalue)] at hsome
    cases hsome
  cases hcases with
  | missing hdata =>
      exact ⟨hgood, hextends, rfl, fun hnone => by cases hnone⟩
  | invalid hdata hdonation =>
      have hinvalid := hnot hdata (by rintro _ ⟨⟩; exact hdonation)
      exact ⟨hgood.advance hlogs hx hp hbefore
          fun _ hvalid => absurd hvalid hinvalid,
        hextends, advance_start, fun _ _ hvalid => absurd hvalid hinvalid⟩
  | @accepted data donation hdata hdonation hemit =>
      have hcall := hgood.call hlogs hx hp hbefore donation true
      have hemitted : Emitted codec (s.call publication donation true).calls
          s.position.epoch x :=
        ⟨_, List.mem_append_right _ List.mem_cons_self, rfl, rfl, hp⟩
      refine ⟨hcall.advance hlogs hx hp ?_ fun _ _ _ => hemitted, hextends,
        advance_start, fun _ _ _ => by rwa [advance_calls]⟩
      exact fun y hy hvalid hstart hlt =>
        (hbefore y hy hvalid hstart hlt).mono (List.prefix_append _ _)
  | @refused data donation hdata hdonation hemit =>
      exact ⟨hgood.call hlogs hx hp hbefore donation false, hextends, rfl,
        fun hnone => by cases hnone⟩

/-- The same of a push. -/
theorem Good.handles (hlogs : Logs codec log) (hgood : Good codec log s)
    (hx : s.position.epoch ≠ "" → x ∈ log s.position.epoch)
    (hp : codec.publication x.document = some publication)
    (hbefore : Before codec log s x.offset)
    (h : handlePublication codec emit s publication = (t, error)) :
    Handled codec log s t x error := by
  by_cases hdata : publication.data = none
  · rw [handle_missing hdata] at h
    cases h
    have hinvalid : ¬ x.Valid codec := by
      rintro ⟨publication', value, donation, hp', hvalue, -⟩
      rw [hp] at hp'
      cases hp'
      rw [hdata] at hvalue
      cases hvalue
    exact ⟨hgood.advance hlogs hx hp hbefore
        fun _ hvalid => absurd hvalid hinvalid,
      extends_advance s, advance_start,
      fun _ _ hvalid => absurd hvalid hinvalid⟩
  · rw [handle_data hdata] at h
    exact hgood.emits hlogs hx hp hbefore h

theorem Good.same (hgood : Good codec log s)
    (hposition : t.position = s.position) (hcalls : t.calls = s.calls)
    (hstart : t.start = s.start) : Good codec log t where
  stream := by rw [hstart, hposition, hgood.stream]
  known := by
    rw [hposition]
    exact hgood.known
  calls := by
    rw [hcalls]
    exact hgood.calls
  covered := by
    rw [hposition, hcalls, hstart]
    exact hgood.covered
  ordered := by
    rw [hcalls, hstart]
    exact hgood.ordered

-- =================================== replies

/-- emitPublication on what the server has. -/
def emitPublished (codec : Codec Json Donation)
    (emit : List Donation → Donation → Bool) (s : Session Json Donation)
    (x : Published Json) : Session Json Donation × Option SessionError :=
  (codec.publication x.document).elim (s, none)
    (emitPublication codec emit s)

/-- Publications of a reply, when the stream has none with a donation
before one of them but those before it in the reply and those that were
passed on. -/
theorem Good.publications {xs : List (Published Json)} (hlogs : Logs codec log)
    (hgood : Good codec log s)
    (hxs : ∀ x ∈ xs, s.position.epoch ≠ "" → x ∈ log s.position.epoch)
    (hbefore : ∀ done x rest, xs = done ++ x :: rest →
      ∀ y ∈ log s.position.epoch, y.Valid codec → s.start.Owes codec y →
        y.offset < x.offset →
          y ∈ done ∨ Emitted codec s.calls s.position.epoch y)
    (h : pass (emitPublished codec emit) s xs = (t, error)) :
    Good codec log t ∧ s.Extends t ∧ t.start = s.start
      ∧ (error = none → s.position.epoch ≠ "" → ∀ x ∈ xs, x.Valid codec →
        Emitted codec t.calls s.position.epoch x) := by
  let I (done : List (Published Json)) (u : Session Json Donation) : Prop :=
    Good codec log u ∧ s.Extends u ∧ u.start = s.start
      ∧ (s.position.epoch ≠ "" → ∀ x ∈ done, x.Valid codec →
        Emitted codec u.calls s.position.epoch x)
  have hhandled (done : List (Published Json)) (x : Published Json)
      (rest : List (Published Json)) (u v : Session Json Donation)
      (e : Option SessionError) (hsplit : xs = done ++ x :: rest)
      (hI : I done u) (hv : emitPublished codec emit u x = (v, e)) :
      Good codec log v ∧ s.Extends v ∧ v.start = s.start
        ∧ (e = none → I (done ++ [x]) v) := by
    obtain ⟨hu, hext, hstart, hdone⟩ := hI
    unfold emitPublished at hv
    cases hp : codec.publication x.document with
    | none =>
        rw [hp] at hv
        cases hv
        refine ⟨hu, hext, hstart, fun _ => ⟨hu, hext, hstart, ?_⟩⟩
        intro hepoch y hy hvalid
        rcases List.mem_append.mp hy with hy | hy
        · exact hdone hepoch y hy hvalid
        · rw [List.mem_singleton.mp hy] at hvalid
          obtain ⟨_, _, _, hsome, -⟩ := hvalid
          rw [hp] at hsome
          cases hsome
    | some publication =>
        rw [hp] at hv
        have hmem : x ∈ xs :=
          hsplit ▸ List.mem_append_right _ List.mem_cons_self
        have hx := hxs x hmem
        have hv := hu.emits hlogs (x := x) (hext.epoch ▸ hx) hp (by
          intro y hy hvalid hlow hlt
          rw [hext.epoch] at hy ⊢
          rw [hstart] at hlow
          rcases hbefore done x rest hsplit y hy hvalid hlow hlt with
            hy' | hy'
          · refine hdone ?_ y hy' hvalid
            intro hepoch
            rw [hepoch, hlogs.unnamed] at hy
            cases hy
          · exact hy'.mono hext.calls) hv
        refine ⟨hv.good, hext.trans hv.frame, hv.start.trans hstart,
          fun hnone => ⟨hv.good, hext.trans hv.frame, hv.start.trans hstart,
            ?_⟩⟩
        intro hepoch y hy hvalid
        rcases List.mem_append.mp hy with hy | hy
        · exact (hdone hepoch y hy hvalid).mono hv.frame.calls
        · rw [List.mem_singleton.mp hy] at hvalid ⊢
          have := hv.emitted hnone (hext.epoch ▸ hepoch) hvalid
          rwa [hext.epoch] at this
  have h0 : I [] s := ⟨hgood, .refl s, rfl, fun _ _ hx => by cases hx⟩
  have hstep := fun done x rest u v hsplit hI hv =>
    (hhandled done x rest u v none hsplit hI hv).2.2.2 rfl
  cases error with
  | none =>
      obtain ⟨ht, hext, hstart, hdone⟩ := pass_ok h0 hstep h
      exact ⟨ht, hext, hstart, fun _ => hdone⟩
  | some e =>
      obtain ⟨done, x, rest, u, hsplit, hI, hfail⟩ := pass_error h0 hstep h
      obtain ⟨ht, hext, hstart, -⟩ :=
        hhandled done x rest u t (some e) hsplit hI hfail
      exact ⟨ht, hext, hstart, fun hnone => by cases hnone⟩

section Reply

variable {epoch : String} {old new : List (Published Json)}
variable {requested : Option StreamPosition}
variable {subscribed : SubscriptionResult Json}

/-- A reply that does not recover begins anew: at the start of its stream
until its own position is reached. -/
theorem Good.restart (hlogs : Logs codec log) (hgood : Good codec log s)
    (hanswers : Answers epoch old requested subscribed)
    (hcalls : ∀ call ∈ s.calls, call.epoch = epoch →
      call.publication.offset ≤ top old) (position : StreamPosition)
    (hposition : position.epoch = subscribed.epoch)
    (hzero : position.offset = 0)
    (listed : List (SocketPublication Json)) :
    Good codec log
      { s.setPosition position with
        start :=
          { position := subscribed.baseline
            listed
            calls := s.calls.length } } where
  stream := hposition.symm
  known := Or.inr (hzero.trans_le (Nat.zero_le _))
  calls := hgood.calls
  covered := by
    intro x hx _ _ hle
    have hpositive := hlogs.positive _ x hx
    change x.offset ≤ position.offset at hle
    omega
  ordered := by
    intro before call after hsplit hepoch hsince
    have hcall : call ∈ s.calls := hsplit ▸
      List.mem_append_right _ List.mem_cons_self
    rcases hsince with hstart | hcount
    · have hstream : call.epoch = subscribed.epoch := hepoch
      rw [hanswers.stream] at hstream
      split at hstream
      next hrecoverable =>
        have hle := hcalls call hcall hstream
        have htop : subscribed.baseline.offset = top old :=
          hanswers.baseline hrecoverable
        exact absurd hstart (htop ▸ hle).not_gt
      next hrecoverable =>
        intro y hy
        have hnone : subscribed.baseline.epoch = "" := by
          rw [SubscriptionResult.baseline, hanswers.stream,
            if_neg hrecoverable]
        rw [hnone, hlogs.unnamed] at hy
        cases hy
    · -- a call of before the reply
      have hlength := congrArg List.length hsplit
      change s.calls.length = _ at hlength
      change s.calls.length ≤ _ at hcount
      rw [List.length_append, List.length_cons] at hlength
      omega

/-- The end of a reply, when all that its log has of what is owed was
passed on. -/
theorem Good.settle (hgood : Good codec log s)
    (hsorted : (log epoch).Pairwise (·.offset < ·.offset))
    (hlog : log epoch = old ++ new) (position : StreamPosition)
    (hposition : position.epoch = s.position.epoch)
    (htop : position.epoch ≠ "" → position.epoch = epoch
      ∧ position.offset = top old)
    (hnone : log "" = []) (hpositive : ∀ x ∈ log epoch, 0 < x.offset)
    (hold : position.epoch ≠ "" → ∀ y ∈ old, y.Valid codec →
      s.start.Owes codec y → Emitted codec s.calls position.epoch y) :
    Good codec log (s.setPosition position) where
  stream := by
    rw [setPosition_start, setPosition_position, hposition, hgood.stream]
  known := by
    by_cases hepoch : position.epoch = ""
    · exact .inl hepoch
    · obtain ⟨he, ho⟩ := htop hepoch
      refine .inr ?_
      rw [setPosition_position, ho, he, hlog]
      rcases List.eq_nil_or_concat old with rfl | ⟨before, last, rfl⟩
      · exact Nat.zero_le _
      · rw [List.concat_eq_append, top_append, ← List.concat_eq_append,
          ← hlog]
        refine offset_le_top hsorted ?_
        rw [hlog, List.concat_eq_append]
        simp
  calls := hgood.calls
  covered := by
    rw [setPosition_position, setPosition_calls, setPosition_start]
    intro y hy hvalid hstart hle
    by_cases hepoch : position.epoch = ""
    · rw [hepoch, hnone] at hy
      cases hy
    · obtain ⟨he, ho⟩ := htop hepoch
      rw [ho] at hle
      rw [he] at hy
      have hy_positive := hpositive y hy
      rw [hlog] at hy hsorted
      exact hold hepoch y (mem_of_le_top hsorted hy hle hy_positive) hvalid
        hstart
  ordered := hgood.ordered

/-- The publications of a reply, oldest first. -/
theorem Answers.published (hanswers : Answers epoch old requested subscribed)
    (hrequested : requested = s.recoverFrom) :
    ∃ xs : List (Published Json),
      subscribed.publications = (xs.map (·.document)).reverse
        ∧ (∀ x ∈ xs, x ∈ old)
        ∧ (s.position.valid = true ∧ subscribed.recovered = true →
          subscribed.recoverable = true ∧ s.position.epoch = epoch
            ∧ xs = old.filter fun x => s.position.offset < x.offset) := by
  by_cases h : s.position.valid = true ∧ subscribed.recovered = true
  · rw [Session.recoverFrom, if_pos h.1] at hrequested
    obtain ⟨hrecoverable, hepoch, hdocuments⟩ :=
      hanswers.recovered s.position hrequested h.2
    exact ⟨_, hdocuments, fun x hx => (List.mem_filter.mp hx).1,
      fun _ => ⟨hrecoverable, hepoch, rfl⟩⟩
  · obtain ⟨xs, hdocuments, hxs⟩ := exists_of_documents hanswers.publications
    exact ⟨xs.reverse, by rw [List.map_reverse, List.reverse_reverse,
      hdocuments], fun x hx => hxs x (List.mem_reverse.mp hx),
      fun h' => absurd h' h⟩

/-- The stream of a reply. -/
theorem Answers.named (hanswers : Answers epoch old requested subscribed)
    (hepoch : subscribed.baseline.epoch ≠ "") :
    subscribed.baseline.epoch = epoch
      ∧ subscribed.baseline.offset = top old := by
  have hrecoverable : subscribed.recoverable = true := by
    by_contra hnot
    exact hepoch (hanswers.stream.trans (if_neg hnot))
  exact ⟨hanswers.stream.trans (if_pos hrecoverable),
    hanswers.baseline hrecoverable⟩

/-- What a reply has listed of a log, where it lists the oldest last. -/
theorem mem_of_listed {xs : List (Published Json)} {y : Published Json}
    (hlogs : Logs codec log) (hxs : ∀ x ∈ xs, x ∈ log epoch)
    (hdecode : ∀ x ∈ xs, (codec.publication x.document).isSome)
    (hlisted : (xs.filterMap fun x => codec.publication x.document).Pairwise
      (·.offset < ·.offset))
    (hy : y ∈ log epoch)
    (hmem : publication ∈ xs.filterMap fun x =>
      codec.publication x.document)
    (hp : codec.publication y.document = some publication) :
    y ∈ xs ∧ xs.Pairwise (·.offset < ·.offset) := by
  constructor
  · obtain ⟨x, hx, hp'⟩ := List.mem_filterMap.mp hmem
    have heq : x.offset = y.offset :=
      (hlogs.offset _ x (hxs x hx) _ hp').symm.trans
        (hlogs.offset _ y hy _ hp)
    exact eq_of_offset (hlogs.sorted _) (hxs x hx) hy heq ▸ hx
  · refine List.Pairwise.imp_of_mem ?_ (List.pairwise_filterMap.mp hlisted)
    intro x z hx hz hlt
    obtain ⟨p, hp⟩ := Option.isSome_iff_exists.mp (hdecode x hx)
    obtain ⟨q, hq⟩ := Option.isSome_iff_exists.mp (hdecode z hz)
    have hpq := hlt p hp q hq
    rwa [hlogs.offset _ x (hxs x hx) p hp,
      hlogs.offset _ z (hxs z hz) q hq] at hpq

/-- Where the publications `xs` of a reply are handled from: all that its
log has of what is owed is among them, or was passed on. -/
theorem Good.resumed {xs : List (Published Json)}
    {listed : List (SocketPublication Json)} (hlogs : Logs codec log)
    (hgood : Good codec log s) (hlog : log epoch = old ++ new)
    (hanswers : Answers epoch old requested subscribed)
    (hcalls : ∀ call ∈ s.calls, call.epoch = epoch →
      call.publication.offset ≤ top old)
    (hxs : ∀ x ∈ xs, x ∈ old)
    (hdecode : ∀ x ∈ xs, (codec.publication x.document).isSome)
    (hlisted : listed = xs.filterMap fun x => codec.publication x.document)
    (hrecovered : s.position.valid = true ∧ subscribed.recovered = true →
      subscribed.recoverable = true ∧ s.position.epoch = epoch
        ∧ xs = old.filter fun x => s.position.offset < x.offset)
    (hr : s.resume subscribed listed = t) :
    Good codec log t ∧ t.position.epoch = subscribed.baseline.epoch
      ∧ (t.position.epoch ≠ "" → ∀ y ∈ old, y.Valid codec →
        t.start.Owes codec y →
          (y ∈ xs ∧ (xs.Pairwise (·.offset < ·.offset)))
            ∨ Emitted codec t.calls epoch y) := by
  have hsorted := hlogs.sorted epoch
  rw [hlog] at hsorted
  unfold Session.resume at hr
  by_cases hcase : s.position.valid = true ∧ subscribed.recovered = true
  · rw [if_pos hcase] at hr
    subst hr
    obtain ⟨hrecoverable, hepoch, rfl⟩ := hrecovered hcase
    refine ⟨hgood, hepoch.trans
      (hanswers.stream.trans (if_pos hrecoverable)).symm, ?_⟩
    intro _ y hy hvalid hstart
    by_cases hle : y.offset ≤ s.position.offset
    · refine .inr ?_
      rw [← hepoch]
      refine hgood.covered y ?_ hvalid hstart hle
      rw [hepoch, hlog]
      exact List.mem_append_left new hy
    · refine .inl ⟨List.mem_filter.mpr ⟨hy, ?_⟩, ?_⟩
      · exact decide_eq_true (Nat.lt_of_not_le hle)
      · exact (List.pairwise_append.mp hsorted).1.filter _
  · rw [if_neg hcase] at hr
    subst hr
    refine ⟨hgood.restart hlogs hanswers hcalls
      { epoch := subscribed.baseline.epoch
        valid := subscribed.baseline.valid } rfl offset_zero listed, rfl, ?_⟩
    rintro hepoch y hy - (hstart | ⟨hordered, p, hp, hyp⟩)
    · have htop := (hanswers.named hepoch).2
      have hle := offset_le_top (List.pairwise_append.mp hsorted).1 hy
      exact absurd hstart (hle.trans htop.ge).not_gt
    · change listed.Pairwise _ at hordered
      change p ∈ listed at hp
      have hin : ∀ x ∈ old, x ∈ log epoch := fun x hx =>
        hlog ▸ List.mem_append_left new hx
      rw [hlisted] at hordered hp
      exact Or.inl (mem_of_listed hlogs (fun x hx => hin x (hxs x hx))
        hdecode hordered (hin y hy) hp hyp)

/-- What a session has passed on after the reply to its subscribe command
is all that the log of the reply has of what it owes. -/
theorem Good.replied (hlogs : Logs codec log) (hgood : Good codec log s)
    (hlog : log epoch = old ++ new)
    (hrequested : requested = s.recoverFrom)
    (hanswers : Answers epoch old requested subscribed)
    (hcalls : ∀ call ∈ s.calls, call.epoch = epoch →
      call.publication.offset ≤ top old)
    (h : handleSubscribed codec emit s subscribed = (t, error)) :
    Good codec log t ∧ t.channel = s.channel ∧ t.pending = s.pending
      ∧ t.requested = s.requested
      ∧ (error = none → t.position.epoch ≠ "" → t.position.epoch = epoch
        ∧ ∀ y ∈ old, y.Valid codec → t.start.Owes codec y →
          Emitted codec t.calls epoch y) := by
  have hsame : Good codec log s.setSubscribed := hgood.same rfl rfl rfl
  unfold handleSubscribed at h
  cases hpublications : subscribed.publications.mapM codec.publication with
  | none =>
      simp only [hpublications] at h
      cases h
      exact ⟨hgood, rfl, rfl, rfl, fun hnone => by cases hnone⟩
  | some publications =>
      simp only [hpublications] at h
      by_cases hmissing : subscribed.recoverable = true ∧ subscribed.epoch = ""
      · rw [if_pos hmissing] at h
        cases h
        exact ⟨hgood, rfl, rfl, rfl, fun hnone => by cases hnone⟩
      rw [if_neg hmissing] at h
      by_cases hfails : refreshFails subscribed.expires subscribed.ttl = true
      · rw [if_pos hfails] at h
        cases h
        exact ⟨hsame, rfl, rfl, rfl, fun hnone => by cases hnone⟩
      rw [if_neg hfails] at h
      obtain ⟨xs, hdocuments, hxs, hrecovered⟩ :=
        hanswers.published hrequested
      generalize hr : s.setSubscribed.resume subscribed
        publications.reverse = r at h
      obtain ⟨hfiltered, hall⟩ := filterMap_of_mapM hpublications
      have hlisted : publications.reverse
          = xs.filterMap fun x => codec.publication x.document := by
        rw [hfiltered, hdocuments, List.filterMap_reverse,
          List.reverse_reverse, List.filterMap_map]
        rfl
      have hdecode : ∀ x ∈ xs, (codec.publication x.document).isSome := by
        intro x hx
        refine hall x.document ?_
        rw [hdocuments]
        exact List.mem_reverse.mpr (List.mem_map_of_mem hx)
      have hlist : pass (emitPublication codec emit) r publications.reverse
          = pass (emitPublished codec emit) r xs := by
        rw [hlisted, ← pass_filterMap]
        rfl
      rw [hlist] at h
      have hframe : r.channel = s.channel ∧ r.pending = s.pending
          ∧ r.requested = s.requested := by
        rw [← hr]
        unfold Session.resume
        split <;> exact ⟨rfl, rfl, rfl⟩
      obtain ⟨hgood', hbaseline, howed⟩ :=
        hsame.resumed hlogs hlog hanswers hcalls hxs hdecode hlisted
          hrecovered hr
      have hnamed : r.position.epoch ≠ "" → r.position.epoch = epoch := by
        rw [hbaseline]
        exact fun hepoch => (hanswers.named hepoch).1
      have hsorted := hlogs.sorted epoch
      rw [hlog] at hsorted
      cases hpass : pass (emitPublished codec emit) r xs with
      | mk u first =>
          have hresult := hgood'.publications hlogs
            (fun x hx hepoch => by
              rw [hnamed hepoch, hlog]
              exact List.mem_append_left new (hxs x hx))
            (fun done x rest hsplit y hy hvalid hstart hlt => by
              have hepoch : r.position.epoch ≠ "" := by
                intro hepoch
                rw [hepoch, hlogs.unnamed] at hy
                cases hy
              have hx : x ∈ old :=
                hxs x (hsplit ▸ List.mem_append_right _ List.mem_cons_self)
              have hold : y ∈ old := by
                rw [hnamed hepoch] at hy
                have hpositive := hlogs.positive epoch y hy
                rw [hlog] at hy
                exact mem_of_le_top hsorted hy
                  (hlt.le.trans
                    (offset_le_top (List.pairwise_append.mp hsorted).1 hx))
                  hpositive
              rw [hnamed hepoch]
              rcases howed hepoch y hold hvalid hstart with
                ⟨hyxs, hxssorted⟩ | hemitted
              · rw [hsplit] at hyxs hxssorted
                exact .inl (mem_before hxssorted hyxs hlt)
              · exact .inr hemitted) hpass
          obtain ⟨hu, hext, hstart, hdone⟩ := hresult
          rw [hpass] at h
          cases first with
          | some e =>
              cases h
              exact ⟨hu, hext.channel.trans hframe.1,
                hext.pending.trans hframe.2.1,
                hext.requested.trans hframe.2.2, fun hnone => by cases hnone⟩
          | none =>
              cases h
              have hepochs : subscribed.baseline.epoch = u.position.epoch := by
                rw [hext.epoch, hbaseline]
              have hall (hepoch : r.position.epoch ≠ "") :
                  ∀ y ∈ old, y.Valid codec → u.start.Owes codec y →
                    Emitted codec u.calls epoch y := by
                intro y hy hvalid hlow
                rw [hstart] at hlow
                rcases howed hepoch y hy hvalid hlow with ⟨hyxs, -⟩ | hemitted
                · rw [← hnamed hepoch]
                  exact hdone rfl hepoch y hyxs hvalid
                · exact hemitted.mono hext.calls
              refine ⟨hu.settle (hlogs.sorted epoch) hlog _ hepochs
                  hanswers.named hlogs.unnamed (hlogs.positive epoch) ?_,
                hext.channel.trans hframe.1, hext.pending.trans hframe.2.1,
                hext.requested.trans hframe.2.2, fun _ hepoch => ?_⟩
              · intro hepoch y hy hvalid hlow
                rw [(hanswers.named hepoch).1]
                exact hall (hbaseline ▸ hepoch) y hy hvalid hlow
              · rw [setPosition_position] at hepoch ⊢
                exact ⟨(hanswers.named hepoch).1,
                  hall (hbaseline ▸ hepoch)⟩

end Reply

end Good

end StreamBrew.DonationAlerts.Socket
