/-
What is true of every row of the queue.

Three calls insert a row, each with a snapshot of its own; whatever else
is done to a row is a step of the diagram. So a condition holds of every
row of every run when the three new rows meet it and every step keeps it
(`run_rows`). A condition may ask for a donation, as donations are never
taken away.
-/
import StreamBrew.Alert.Proofs.Calls

namespace StreamBrew.Alert

open Relational

variable {g : Grant} {db db' : Db} {r r' : Playback}

/-- What a call may queue: the incoming playback of a donation, a test,
or the replay of a playback. -/
inductive Queued (db : Db) : Snapshot → PlaybackStatus → Prop
  | incoming {d : Donation} (hd : d ∈ db.donations) (c : Configuration)
      (createdAt expiresAt : Time) :
      Queued db
        (c.present .incoming d.donationID d.source
          (presentedAuthor d.author) (presentedMessage d.message) d.amount
          d.currency createdAt expiresAt)
        (initialStatus c d.message)
  | test (c : Configuration) (createdAt expiresAt : Time) :
      Queued db
        (c.present .test none none (some "StreamBrew")
          (some "This is a test donation alert.") (500 * 10 ^ 18) "RUB"
          createdAt expiresAt)
        (if c.ttsEnabled then .preparing else .pending)
  | replay {s : Playback} (hs : s ∈ db.playbacks) (c : Configuration)
      (createdAt expiresAt : Time) :
      Queued db
        (c.present .replay s.donationID s.source (presentedAuthor s.author)
          (presentedMessage s.message) s.amount s.currency createdAt
          expiresAt)
        (initialStatus c s.message)

-- =================================== content

/-- What a playback tells of its donation. -/
structure Content where
  donationID : Option DonationID
  source : Option Source
  author : Option String
  message : Option String
  amount : Nat
  currency : String
  deriving DecidableEq

/-- What a snapshot shows of a donation. -/
def Snapshot.content (s : Snapshot) : Content where
  donationID := s.donationID
  source := s.source
  author := s.author
  message := s.message
  amount := s.amount
  currency := s.currency

/-- What a donation has to show. -/
def Donation.content (d : Donation) : Content where
  donationID := some d.donationID
  source := some d.source
  author := d.author
  message := d.message
  amount := d.amount
  currency := d.currency

/-- No statement writes what a row presents. -/
theorem Next.content {has : UserID → AssetID → Prop}
    (h : Next has g r r') : r'.content = r.content := by
  rcases h with h | ⟨-, p, n, rfl⟩
  · cases h <;> rfl
  · rfl

-- ================================= donations

theorem Effect.donations (h : Effect g db db') {d : Donation}
    (hd : d ∈ db.donations) : d ∈ db'.donations := by
  cases h with
  | donate donations hkeep => exact hkeep d hd
  | insert _ hins =>
      obtain ⟨-, playbacks, -, rfl⟩ := Db.insertPlayback_eq_some hins
      exact hd
  | _ => exact hd

theorem Steps.donations (h : Steps g db db') {d : Donation}
    (hd : d ∈ db.donations) : d ∈ db'.donations := by
  induction h with
  | refl => exact hd
  | tail _ heffect ih => exact heffect.donations ih

-- ====================================== rows

/-- A condition on rows that the calls keep. -/
structure RowRule (P : Db → Playback → Prop) : Prop where
  /-- it asks for nothing of the database but donations -/
  donations : ∀ {db db' r}, P db r →
    (∀ d ∈ db.donations, d ∈ db'.donations) → P db' r
  next : ∀ {db has g r r'}, Next has g r r' → P db r → P db r'
  queued : ∀ {db snapshot status}, Queued db snapshot status →
    (∀ s ∈ db.playbacks, P db s) → ∀ draw sequence userID,
    P db (Draw.playback draw sequence userID snapshot status)

section Rule

variable {P : Db → Playback → Prop}

/-- All rows meet the condition. -/
def AllRows (P : Db → Playback → Prop) (db : Db) : Prop :=
  ∀ r ∈ db.playbacks, P db r

/-- A call that queues nothing keeps it. -/
theorem RowRule.steps (hP : RowRule P) (hi : Inv db)
    (hg : ∀ userID, ¬ g.queue userID) (h : AllRows P db)
    (hsteps : Steps g db db') : AllRows P db' := by
  induction hsteps with
  | refl => exact h
  | tail hbefore heffect ih =>
      intro r' hr'
      rcases heffect.origin (hi.steps hbefore) hr' with ⟨r, hr, hn⟩ | hnew
      · exact hP.donations (hP.next hn (ih r hr))
          fun _ => heffect.donations
      · exact absurd hnew.granted (hg _)

theorem RowRule.insert (hP : RowRule P) {draw : Draw} {userID : UserID}
    {snapshot : Snapshot} {status : PlaybackStatus} (h : AllRows P db)
    (hqueued : Queued db snapshot status)
    (hins : db.insertPlayback draw userID snapshot status = some db') :
    AllRows P db' := by
  obtain ⟨-, playbacks, hadd, rfl⟩ := Db.insertPlayback_eq_some hins
  intro r hr
  rcases (Table.mem_insert? hadd).mp hr with hr | rfl
  · exact hP.donations (h r hr) fun _ => id
  · exact hP.donations (hP.queued hqueued h draw db.sequence userID)
      fun _ => id

theorem RowRule.boundBacklog (hP : RowRule P) (h : AllRows P db)
    (userID : UserID) (now : Time) :
    AllRows P (boundBacklog userID now db) := by
  intro r hr
  unfold Alert.boundBacklog at hr
  rw [Table.mem_update] at hr
  obtain ⟨s, hs, he⟩ := hr
  split at he
  case isTrue hp =>
    subst he
    have hmove : Move db.Has {} s (s.expire now .backlogLimit) :=
      .expire hp.1.2 now _
    exact hP.donations (hP.next (Or.inl hmove) (h s hs)) fun _ => id
  case isFalse =>
    subst he
    exact hP.donations (h s hs) fun _ => id

/-- The rule holds of an incoming playback. -/
theorem RowRule.enqueueIncoming (hP : RowRule P) (h : AllRows P db)
    {userID : UserID} {donationID : DonationID} {source : Source}
    {acceptedAt : Time} {draw : Draw}
    (hok : Alert.enqueueIncoming userID donationID source acceptedAt draw db
      = .ok db') : AllRows P db' := by
  unfold Alert.enqueueIncoming at hok
  split at hok
  case h_1 =>
    cases hok
    exact h
  case h_2 c hc =>
    split at hok
    case h_1 =>
      cases hok
      exact hP.boundBacklog h _ _
    case h_2 donation hdonation =>
      split at hok
      case isFalse =>
        cases hok
        exact hP.boundBacklog h _ _
      case isTrue =>
        split at hok
        case h_1 => cases hok
        case h_2 inserted hins =>
          cases hok
          exact hP.boundBacklog (hP.insert h
            (.incoming (Table.mem_of_get? hdonation) c _ _) hins) _ _

theorem RowRule.createTest (hP : RowRule P) (h : AllRows P db)
    (userID : UserID) (now : Time) (draw : Draw) :
    AllRows P (Alert.createTest userID now draw db).2 := by
  have hensured : AllRows P (ensureConfiguration userID db) :=
    fun r hr => hP.donations (h r hr) fun _ => id
  unfold Alert.createTest
  simp only
  split
  case h_1 => exact h
  case h_2 c hc =>
    split
    case h_1 => exact h
    case h_2 inserted hins =>
      have hbounded := hP.boundBacklog
        (hP.insert hensured (.test c _ _) hins) userID now
      split
      case h_1 => exact hbounded
      case h_2 => exact hbounded

/-- The rule holds of a replay. -/
theorem RowRule.replay (hP : RowRule P) (h : AllRows P db)
    (userID : UserID) (sourcePlaybackID : PlaybackID) (now : Time)
    (draw : Draw) :
    AllRows P (Alert.replay userID sourcePlaybackID now draw db).2 := by
  have hensured : AllRows P (ensureConfiguration userID db) :=
    fun r hr => hP.donations (h r hr) fun _ => id
  unfold Alert.replay
  simp only
  split
  case h_1 source c hsource hc =>
    split
    case h_1 => exact h
    case h_2 inserted hins =>
      have hbounded := hP.boundBacklog (hP.insert hensured
        (.replay (Table.find?_eq_some hsource).1 c _ _) hins) userID now
      split
      case h_1 => exact hbounded
      case h_2 => exact hbounded
  case h_2 => exact h

/-- Every call keeps it. -/
theorem RowRule.apply (hP : RowRule P) (hi : Inv db) (h : AllRows P db)
    (a : Action) : AllRows P (apply db a) := by
  have hsteps := apply_steps hi a
  cases a with
  | enqueueIncoming userID donationID source acceptedAt draw =>
      simp only [Alert.apply]
      split
      case h_1 hok => exact hP.enqueueIncoming h hok
      case h_2 => exact h
  | createTest userID now draw => exact hP.createTest h userID now draw
  | replay userID sourcePlaybackID now draw =>
      exact hP.replay h userID sourcePlaybackID now draw
  | _ => exact hP.steps hi (fun _ => id) h hsteps

/-- Every reachable state keeps it. -/
theorem RowRule.reachable (hP : RowRule P) (h : Reachable db) :
    AllRows P db := by
  have hboth := h.preserves (P := fun db => Inv db ∧ AllRows P db)
    ⟨Inv.init, fun r hr => absurd hr Table.not_mem_empty⟩
    fun db a h => ⟨h.1.apply a, hP.apply h.1 h.2 a⟩
  exact hboth.2

end Rule

end StreamBrew.Alert
