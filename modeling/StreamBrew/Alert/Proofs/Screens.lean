/-
Overlay pages over the alert service: a playback is shown once.

# The argument

An acknowledged start stays with its player (`Started`), so all pages
that show a playback do so for one player. A player belongs to one
request of one page, and so to one connection. Over one connection a
playback is sent once (`Linked`).

# Who depends on whom

A start is acknowledged by the store, and the store hands back what was
never started; that a page interrupts only what was started is what the
page knows from its own log.
-/
import StreamBrew.Alert.Proofs.Emissions
import StreamBrew.Alert.Proofs.OverlayLogs
import StreamBrew.Lib.Run

namespace StreamBrew.Alert.Overlay

open Relational

variable {hashToken : String → TokenHash} {tokens : Nat → String}
  {s s' : Screens} {page stream number : Nat} {request : Request}
  {identity : OpenedPlayer} {playerID : PlayerID} {generation : Int}
  {playbackID : PlaybackID}

namespace Screens

-- ================================ statements

/-- An object of a page has entered that brought the playback. -/
def Shows (s : Screens) (page object : Nat) (playbackID : PlaybackID) :
    Prop :=
  object ∈ (s.pages page).shown
    ∧ ∃ identity playback, (s.pages page).toLog.origin object
        = some (identity, playback)
      ∧ playback.playbackID = playbackID

/-- What a stream has emitted, but for the events that its page has
ignored. -/
def emitted (s : Screens) (page stream : Nat) : List PlaybackID :=
  ((s.pages page).received.filter fun r => r.1 = stream).map
      (fun r => r.2.playbackID)
    ++ (s.connections page stream).queue.filterMap StreamEvent.playbackID?

/-- A start was acknowledged to a player. -/
def Granted (s : Screens) (playerID : PlayerID) (generation : Int)
    (playbackID : PlaybackID) : Prop :=
  ∃ page number, ((page, number), Reply.done) ∈ s.replies
    ∧ (s.pages page).sent[number]?
      = some (.started playerID generation playbackID)

/-- The pages and the service agree about who has what. -/
structure Good (s : Screens) : Prop where
  inv : Inv s.db
  listed : Listed s.players s.db
  rows : ∀ r ∈ s.db.playbacks, r.playbackID ∈ s.playbacks
  reached : ∀ page, Reached (s.pages page)
  served : ∀ e ∈ s.replies, e.1 ∈ s.served
  asked : ∀ key ∈ s.served, key.2 < (s.pages key.1).sent.length
  opened : ∀ key player, (key, .opened player) ∈ s.replies →
    player.playerID ∈ s.players
  owners : ∀ key player key' player', (key, .opened player) ∈ s.replies →
    (key', .opened player') ∈ s.replies →
    player.playerID = player'.playerID → key = key'
  taken : ∀ page, ∀ t ∈ (s.pages page).taken,
    ((page, t.1), .opened t.2) ∈ s.replies
  answered : ∀ page, ∀ number ∈ (s.pages page).answered,
    ((page, number), .done) ∈ s.replies
  started : ∀ playerID generation playbackID,
    s.Granted playerID generation playbackID →
    playbackID ∈ s.playbacks ∧ Started playerID generation playbackID s.db
  agreed : ∀ playerID generation playerID' generation' playbackID,
    s.Granted playerID generation playbackID →
    s.Granted playerID' generation' playbackID →
    playerID = playerID' ∧ generation = generation'
  links : ∀ page stream identity,
    (s.pages page).connected[stream]? = some identity →
    Linked identity.playerID identity.generation (s.emitted page stream)
      s.playbacks s.clock s.db (s.connections page stream).stream.point
  unopened : ∀ page stream, (s.pages page).connected[stream]? = none →
    s.connections page stream = {}

-- ================================ identities

/-- A connection's identity came with an answer. -/
theorem Good.came (h : Good s)
    (hconnected : (s.pages page).connected[stream]? = some identity) :
    ∃ number, (number, identity) ∈ (s.pages page).taken := by
  have hmem := List.mem_of_getElem? hconnected
  have htaken := (h.reached page).sound.log.connections.subset hmem
  obtain ⟨t, ht, rfl⟩ := List.mem_map.mp htaken
  exact ⟨t.1, ht⟩

theorem Good.player (h : Good s)
    (hconnected : (s.pages page).connected[stream]? = some identity) :
    identity.playerID ∈ s.players := by
  obtain ⟨number, ht⟩ := h.came hconnected
  exact h.opened _ _ (h.taken page _ ht)

/-- No two connections of a page are of one player. -/
theorem Good.distinct (h : Good s) (page : Nat) :
    ((s.pages page).connected.map OpenedPlayer.playerID).Nodup := by
  have hlog := (h.reached page).sound.log
  have htaken : ((s.pages page).taken.map
      (fun t => t.2.playerID)).Nodup := by
    rw [List.Nodup, List.pairwise_map]
    have hnumbers := List.pairwise_map.mp hlog.numbers
    refine hnumbers.imp_of_mem fun {t t'} ht ht' hless he => ?_
    have hkey := h.owners _ _ _ _ (h.taken page t ht)
      (h.taken page t' ht') he
    injection hkey with _ hnumber
    omega
  have hless := hlog.connections.map OpenedPlayer.playerID
  rw [List.map_map] at hless
  exact hless.nodup htaken

/-- One player has one connection. -/
theorem Good.connection (h : Good s) {page' stream' : Nat}
    {identity' : OpenedPlayer}
    (hconnected : (s.pages page).connected[stream]? = some identity)
    (hconnected' : (s.pages page').connected[stream']? = some identity')
    (hplayer : identity.playerID = identity'.playerID) :
    page = page' ∧ stream = stream' := by
  obtain ⟨number, ht⟩ := h.came hconnected
  obtain ⟨number', ht'⟩ := h.came hconnected'
  have hkey := h.owners _ _ _ _ (h.taken page _ ht)
    (h.taken page' _ ht') hplayer
  injection hkey with hpage _
  subst hpage
  refine ⟨rfl, (List.getElem?_inj ?_ (h.distinct page)).mp ?_⟩
  · rw [List.length_map]
    exact (List.getElem?_eq_some_iff.mp hconnected).1
  · rw [List.getElem?_map, List.getElem?_map, hconnected, hconnected',
      Option.map_some, Option.map_some, hplayer]

-- ===================================== pages

/-- A request that an answer is for stays in its place. -/
theorem Good.granted (h : Good s) {pages : Nat → Page}
    (hsent : ∀ page, (s.pages page).sent <+: (pages page).sent)
    (hreplies : s'.replies = s.replies) (hpages : s'.pages = pages)
    (hgranted : s'.Granted playerID generation playbackID) :
    s.Granted playerID generation playbackID := by
  obtain ⟨page, number, hreply, hrequest⟩ := hgranted
  rw [hreplies] at hreply
  refine ⟨page, number, hreply, ?_⟩
  have hlt := h.asked _ (h.served _ hreply)
  obtain ⟨rest, hrest⟩ := hsent page
  rw [hpages, ← hrest, List.getElem?_append_left hlt] at hrequest
  exact hrequest

/-- A page takes a step; of its connections, queues may get shorter. -/
theorem Good.paged (h : Good s) {q : Page}
    {received : List (Nat × Playback)}
    {taken : List (Nat × OpenedPlayer)} {answered : List Nat}
    {connections : Nat → Nat → Connection} (hq : Reached q)
    (hadds : Adds received taken answered (s.pages page) q)
    (htaken : ∀ t ∈ taken, ((page, t.1), .opened t.2) ∈ s.replies)
    (hanswered : ∀ number ∈ answered,
      ((page, number), .done) ∈ s.replies)
    (hstream : ∀ page stream, (connections page stream).stream
      = (s.connections page stream).stream)
    (hunopened : ∀ page stream, s.connections page stream = {} →
      connections page stream = {})
    (hs' : s' = { s with
      pages := Function.update s.pages page q, connections })
    (hless : ∀ page stream,
      (s'.emitted page stream).Sublist (s.emitted page stream)) :
    Good s' := by
  have hpage : s'.pages page = q := by
    rw [hs']
    exact Function.update_self page q s.pages
  have hother : ∀ other, other ≠ page → s'.pages other = s.pages other := by
    intro other hne
    rw [hs']
    exact Function.update_of_ne hne q s.pages
  have hsent : ∀ page, (s.pages page).sent <+: (s'.pages page).sent := by
    intro other
    by_cases hne : other = page
    case pos =>
      subst hne
      rw [hpage]
      exact hadds.sent
    case neg =>
      rw [hother other hne]
  have hconnected : ∀ page,
      (s.pages page).connected <+: (s'.pages page).connected := by
    intro other
    by_cases hne : other = page
    case pos =>
      subst hne
      rw [hpage]
      exact hadds.connected
    case neg =>
      rw [hother other hne]
  have hreplies : s'.replies = s.replies := by rw [hs']
  have hgranted : ∀ {playerID generation playbackID},
      s'.Granted playerID generation playbackID →
      s.Granted playerID generation playbackID :=
    fun hg => h.granted hsent hreplies rfl hg
  have hdb : s'.db = s.db := by rw [hs']
  have hplaybacks : s'.playbacks = s.playbacks := by rw [hs']
  have hplayers : s'.players = s.players := by rw [hs']
  have hserved : s'.served = s.served := by rw [hs']
  have hclock : s'.clock = s.clock := by rw [hs']
  have hconnections : s'.connections = connections := by rw [hs']
  constructor
  case inv => exact hdb ▸ h.inv
  case listed =>
    rw [hdb, hplayers]
    exact h.listed
  case rows =>
    rw [hdb, hplaybacks]
    exact h.rows
  case reached =>
    intro other
    by_cases hne : other = page
    case pos =>
      subst hne
      rw [hpage]
      exact hq
    case neg =>
      rw [hother other hne]
      exact h.reached other
  case served =>
    rw [hreplies, hserved]
    exact h.served
  case asked =>
    rw [hserved]
    exact fun key hkey =>
      lt_of_lt_of_le (h.asked key hkey) (hsent key.1).length_le
  case opened =>
    rw [hreplies, hplayers]
    exact h.opened
  case owners =>
    rw [hreplies]
    exact h.owners
  case taken =>
    intro other t ht
    rw [hreplies]
    by_cases hne : other = page
    case pos =>
      subst hne
      rw [hpage, hadds.taken] at ht
      rcases List.mem_append.mp ht with ht | ht
      · exact h.taken _ t ht
      · exact htaken t ht
    case neg =>
      rw [hother other hne] at ht
      exact h.taken other t ht
  case answered =>
    intro other number hn
    rw [hreplies]
    by_cases hne : other = page
    case pos =>
      subst hne
      rw [hpage, hadds.answered] at hn
      rcases List.mem_append.mp hn with hn | hn
      · exact h.answered _ number hn
      · exact hanswered number hn
    case neg =>
      rw [hother other hne] at hn
      exact h.answered other number hn
  case started =>
    intro playerID generation playbackID hg
    rw [hplaybacks, hdb]
    exact h.started _ _ _ (hgranted hg)
  case agreed =>
    exact fun _ _ _ _ _ hg hg' =>
      h.agreed _ _ _ _ _ (hgranted hg) (hgranted hg')
  case links =>
    intro other stream identity hidentity
    rw [hplaybacks, hdb, hclock, hconnections, hstream]
    cases hbefore : (s.pages other).connected[stream]? with
    | some identity' =>
        have hsame := getElem?_grow (hconnected other) hbefore
        rw [hidentity] at hsame
        cases hsame
        exact (h.links other stream identity hbefore).mono le_rfl
          (List.Subset.refl _) (hless other stream)
    | none =>
        -- The connection is new.
        have hnone : s.emitted other stream = [] := by
          unfold emitted
          rw [h.unopened other stream hbefore, List.filter_eq_nil_iff.mpr]
          · rfl
          · intro r hr he
            have hlt := (h.reached other).sound.log.sources r hr
            have hle := List.getElem?_eq_none_iff.mp hbefore
            simp only [decide_eq_true_eq] at he
            omega
        have hempty := hless other stream
        rw [hnone] at hempty
        rw [List.sublist_nil.mp hempty, h.unopened other stream hbefore]
        exact .fresh
  case unopened =>
    intro other stream hnone
    rw [hconnections]
    refine hunopened other stream (h.unopened other stream ?_)
    rw [List.getElem?_eq_none_iff] at hnone ⊢
    exact le_trans (hconnected other).length_le hnone

/-- An input that brings no event. -/
theorem Good.onPage (h : Good s) {input : Input}
    {taken : List (Nat × OpenedPlayer)} {answered : List Nat}
    (hadds : Adds [] taken answered (s.pages page)
      ((s.pages page).step input))
    (htaken : ∀ t ∈ taken, ((page, t.1), .opened t.2) ∈ s.replies)
    (hanswered : ∀ number ∈ answered,
      ((page, number), .done) ∈ s.replies) :
    Good (s.onPage page input) := by
  have hsame : s.onPage page input = { s with
      pages := Function.update s.pages page ((s.pages page).step input)
      connections := s.connections } := rfl
  refine h.paged ((h.reached page).step input) hadds htaken hanswered
    (fun _ _ => rfl) (fun _ _ he => he) hsame fun other stream => ?_
  have hreceived : ((s.onPage page input).pages other).received
      = (s.pages other).received := by
    by_cases hne : other = page
    case pos =>
      subst hne
      show (Function.update s.pages other _ other).received = _
      rw [Function.update_self, hadds.received, List.append_nil]
    case neg =>
      show (Function.update s.pages page _ other).received = _
      rw [Function.update_of_ne hne]
  unfold emitted
  rw [hreceived]
  exact List.Sublist.refl _

theorem connect_self (c : Connection) :
    (s.connect page stream c).connections page stream = c := by
  simp only [Screens.connect]
  rw [Function.update_self, Function.update_self]

theorem connect_other {c : Connection} {other stream' : Nat}
    (hne : (other, stream') ≠ (page, stream)) :
    (s.connect page stream c).connections other stream'
      = s.connections other stream' := by
  simp only [Screens.connect]
  by_cases hpage : other = page
  case pos =>
    subst hpage
    rw [Function.update_self, Function.update_of_ne]
    exact fun he => hne (by rw [he])
  case neg => rw [Function.update_of_ne hpage]

/-- The page gets the next event of a stream, or ignores it. -/
theorem Good.delivered (h : Good s) {event : StreamEvent}
    {queue : List StreamEvent}
    (hqueue : (s.connections page stream).queue = event :: queue) :
    Good ((s.connect page stream
      { s.connections page stream with queue }).onPage page
        (.event stream event)) := by
  have hstep := (h.reached page).step (.event stream event)
  have hstream : ∀ other stream', ((s.connect page stream
      { s.connections page stream with queue }).connections other
        stream').stream = (s.connections other stream').stream := by
    intro other stream'
    by_cases hne : (other, stream') = (page, stream)
    case pos =>
      cases hne
      rw [connect_self]
    case neg => rw [connect_other hne]
  have hunopened : ∀ other stream', s.connections other stream' = {} →
      (s.connect page stream { s.connections page stream with
        queue }).connections other stream' = {} := by
    intro other stream' he
    by_cases hne : (other, stream') = (page, stream)
    case pos =>
      cases hne
      rw [he] at hqueue
      cases hqueue
    case neg => rw [connect_other hne, he]
  have hpages : ∀ {q : Page} {received : List (Nat × Playback)},
      q.received = (s.pages page).received ++ received →
      ∀ other, (Function.update s.pages page q other).received
        = (s.pages other).received
          ++ (if other = page then received else []) := by
    intro q received hq other
    by_cases hne : other = page
    case pos =>
      subst hne
      rw [Function.update_self, hq, if_pos rfl]
    case neg =>
      rw [Function.update_of_ne hne, if_neg hne, List.append_nil]
  rcases Page.adds_event stream event (s.pages page) with
    hadds | ⟨playback, rfl, hadds⟩
  · refine h.paged hstep hadds (fun _ ht => by cases ht)
      (fun _ hn => by cases hn) hstream hunopened rfl
      fun other stream' => ?_
    unfold emitted
    show List.Sublist (((Function.update s.pages page
      ((s.pages page).step (.event stream event)) other).received.filter
        _).map _ ++ ((s.connect page stream
          { s.connections page stream with queue }).connections other
            stream').queue.filterMap _) _
    rw [hpages hadds.received, ite_self, List.append_nil]
    refine List.Sublist.append_left ?_ _
    by_cases hne : (other, stream') = (page, stream)
    case pos =>
      cases hne
      rw [connect_self, hqueue]
      exact (List.sublist_cons_self event queue).filterMap _
    case neg =>
      rw [connect_other hne]
  · refine h.paged hstep hadds (fun _ ht => by cases ht)
      (fun _ hn => by cases hn) hstream hunopened rfl
      fun other stream' => ?_
    unfold emitted
    show List.Sublist (((Function.update s.pages page
      ((s.pages page).step (.event stream (.playback playback)))
        other).received.filter _).map _
          ++ ((s.connect page stream
            { s.connections page stream with queue }).connections other
              stream').queue.filterMap _) _
    rw [hpages hadds.received]
    by_cases hne : (other, stream') = (page, stream)
    case pos =>
      -- It moves from the queue to what was received.
      cases hne
      rw [connect_self, hqueue, if_pos rfl, List.filter_append, List.map_append,
        List.append_assoc]
      simp [StreamEvent.playbackID?]
    case neg =>
      rw [connect_other hne]
      by_cases hpage : other = page
      case pos =>
        subst hpage
        have hne : stream ≠ stream' := fun he => hne (by rw [he])
        rw [if_pos rfl, List.filter_append]
        simp [hne]
      case neg => rw [if_neg hpage, List.append_nil]

-- ================================= the store

/-- A call that the system admits. -/
theorem Good.called (h : Good s) {a : Action}
    (ha : Admits s.clock s.players s.db a)
    (hnew : ∀ playbackID ∈ a.drawn, playbackID ∉ s.playbacks)
    {players : List PlayerID} (hplayers : a.opens ++ s.players ⊆ players) :
    Good { s with
      db := apply s.db a, players, playbacks := a.drawn ++ s.playbacks } where
  inv := h.inv.apply a
  listed := by
    have hl := h.listed.next ha
    exact ⟨fun x hx => hplayers (hl.drawn x hx), hl.unique⟩
  rows r hr := by
    rcases id_origin h.inv a r hr with ⟨r₀, hr₀, hid, -⟩ | hdrawn
    · rw [← hid]
      exact List.mem_append_right _ (h.rows r₀ hr₀)
    · exact List.mem_append_left _ hdrawn
  reached := h.reached
  served := h.served
  asked := h.asked
  opened key player hreply :=
    hplayers (List.mem_append_right _ (h.opened key player hreply))
  owners := h.owners
  taken := h.taken
  answered := h.answered
  started playerID generation playbackID hg := by
    obtain ⟨hdrawn, hstarted⟩ := h.started _ _ _ hg
    refine ⟨List.mem_append_right _ hdrawn, hstarted.next h.inv ?_⟩
    exact fun hd => hnew playbackID hd hdrawn
  agreed := h.agreed
  links page stream identity hidentity :=
    ((h.links page stream identity hidentity).next h.inv h.listed ha
      (h.player hidentity) hnew).mono le_rfl
        (List.subset_append_right _ _) (List.Sublist.refl _)
  unopened := h.unopened

/-- Ids are drawn for nothing. -/
theorem Good.wasted (h : Good s) {players : List PlayerID}
    (hplayers : s.players ⊆ players) : Good { s with players } where
  inv := h.inv
  listed := ⟨fun x hx => hplayers (h.listed.drawn x hx), h.listed.unique⟩
  rows := h.rows
  reached := h.reached
  served := h.served
  asked := h.asked
  opened key player hreply := hplayers (h.opened key player hreply)
  owners := h.owners
  taken := h.taken
  answered := h.answered
  started := h.started
  agreed := h.agreed
  links := h.links
  unopened := h.unopened

/-- Time goes by. -/
theorem Good.ticked (h : Good s) (elapsed : Nat) :
    Good { s with clock := s.clock + elapsed } where
  inv := h.inv
  listed := h.listed
  rows := h.rows
  reached := h.reached
  served := h.served
  asked := h.asked
  opened := h.opened
  owners := h.owners
  taken := h.taken
  answered := h.answered
  started := h.started
  agreed := h.agreed
  links page stream identity hidentity := by
    refine (h.links page stream identity hidentity).mono ?_
      (List.Subset.refl _) (List.Sublist.refl _)
    exact le_add_of_nonneg_right (Int.natCast_nonneg elapsed)
  unopened := h.unopened

-- ================================== requests

/-- An answer to a request that had none. -/
theorem Good.replied (h : Good s)
    (hsent : (s.pages page).sent[number]? = some request)
    {reply : Option Reply}
    (hopened : ∀ player, reply = some (.opened player) →
      player.playerID ∈ s.players
        ∧ ∀ key player', (key, .opened player') ∈ s.replies →
          player'.playerID ≠ player.playerID)
    (hdone : ∀ playerID generation playbackID, reply = some .done →
      request = .started playerID generation playbackID →
      playbackID ∈ s.playbacks
        ∧ Started playerID generation playbackID s.db
        ∧ ∀ playerID' generation',
          s.Granted playerID' generation' playbackID →
          playerID = playerID' ∧ generation = generation') :
    Good { s with
      served := (page, number) :: s.served
      replies := reply.toList.map (fun reply => ((page, number), reply))
        ++ s.replies } := by
  have hreply : ∀ {e}, e ∈ reply.toList.map
      (fun reply => ((page, number), reply)) ++ s.replies →
      e = ((page, number), e.2) ∧ reply = some e.2 ∨ e ∈ s.replies := by
    intro e he
    rcases List.mem_append.mp he with he | he
    · left
      obtain ⟨answer, ha, rfl⟩ := List.mem_map.mp he
      exact ⟨rfl, Option.mem_toList.mp ha⟩
    · exact .inr he
  have hgranted : ∀ {playerID generation playbackID},
      Granted { s with
        served := (page, number) :: s.served
        replies := reply.toList.map (fun reply => ((page, number), reply))
          ++ s.replies } playerID generation playbackID →
      reply = some .done
          ∧ request = .started playerID generation playbackID
        ∨ s.Granted playerID generation playbackID := by
    rintro playerID generation playbackID ⟨page', number', he, hrequest⟩
    rcases hreply he with ⟨hkey, ha⟩ | he
    · left
      injection hkey with hkey
      cases hkey
      rw [hsent] at hrequest
      exact ⟨ha, Option.some.inj hrequest⟩
    · exact .inr ⟨page', number', he, hrequest⟩
  constructor
  case inv => exact h.inv
  case listed => exact h.listed
  case rows => exact h.rows
  case reached => exact h.reached
  case served =>
    intro e he
    rcases hreply he with ⟨hkey, -⟩ | he
    · rw [hkey]
      exact List.mem_cons_self
    · exact List.mem_cons_of_mem _ (h.served e he)
  case asked =>
    intro key hkey
    rcases List.mem_cons.mp hkey with rfl | hkey
    · exact (List.getElem?_eq_some_iff.mp hsent).1
    · exact h.asked key hkey
  case opened =>
    intro key player he
    rcases hreply he with ⟨-, ha⟩ | he
    · exact (hopened player ha).1
    · exact h.opened key player he
  case owners =>
    intro key player key' player' he he' hid
    rcases hreply he with ⟨hkey, ha⟩ | he
    · rcases hreply he' with ⟨hkey', -⟩ | he'
      · injection hkey with hkey
        injection hkey' with hkey'
        rw [hkey, hkey']
      · exact absurd hid.symm ((hopened player ha).2 key' player' he')
    · rcases hreply he' with ⟨-, ha'⟩ | he'
      · exact absurd hid ((hopened player' ha').2 key player he)
      · exact h.owners key player key' player' he he' hid
  case taken =>
    exact fun page t ht => List.mem_append_right _ (h.taken page t ht)
  case answered =>
    exact fun page n hn => List.mem_append_right _ (h.answered page n hn)
  case started =>
    intro playerID generation playbackID hg
    rcases hgranted hg with ⟨ha, hrequest⟩ | hg
    · have hfacts := hdone _ _ _ ha hrequest
      exact ⟨hfacts.1, hfacts.2.1⟩
    · exact h.started _ _ _ hg
  case agreed =>
    intro playerID generation playerID' generation' playbackID hg hg'
    rcases hgranted hg with ⟨ha, hrequest⟩ | hg
    · rcases hgranted hg' with ⟨-, hrequest'⟩ | hg'
      · rw [hrequest] at hrequest'
        cases hrequest'
        exact ⟨rfl, rfl⟩
      · exact (hdone _ _ _ ha hrequest).2.2 _ _ hg'
    · rcases hgranted hg' with ⟨ha', hrequest'⟩ | hg'
      · have hsame := (hdone _ _ _ ha' hrequest').2.2 _ _ hg
        exact ⟨hsame.1.symm, hsame.2.symm⟩
      · exact h.agreed _ _ _ _ _ hg hg'
  case links => exact h.links
  case unopened => exact h.unopened

end Screens

-- ------------------------------------------------------------- serving

/-- The store call of a request. -/
def Request.action (hashToken : String → TokenHash) (token : String)
    (candidateID : PlayerID) (now : Time) : Request → Action
  | .openOverlay => .openPlayer (hashToken token) candidateID now
  | .heartbeat playerID generation active visible =>
      .heartbeat (hashToken token) playerID generation active visible now
  | .started playerID generation playbackID =>
      .startPlayback (hashToken token) playerID generation playbackID now
  | .finished playerID generation playbackID outcome =>
      .finishPlayback (hashToken token) playerID generation playbackID
        outcome now
  | .diagnostic playerID generation playbackID code =>
      .recordPlaybackDiagnostic (hashToken token) playerID generation
        playbackID code now

variable {token : String} {candidateID : PlayerID} {now : Time} {db : Db}

theorem acknowledged_snd (outcome : Outcome Unit) :
    (acknowledged outcome).2 = outcome.2 := by
  obtain ⟨answer, db⟩ := outcome
  cases answer <;> rfl

theorem acknowledged_opened {outcome : Outcome Unit}
    {player : OpenedPlayer} :
    (acknowledged outcome).1 ≠ some (.opened player) := by
  obtain ⟨answer, db⟩ := outcome
  cases answer <;> simp [acknowledged]

theorem acknowledged_done {outcome : Outcome Unit}
    (h : (acknowledged outcome).1 = some .done) : outcome.1 = .ok () := by
  obtain ⟨answer, db⟩ := outcome
  cases answer with
  | error => cases h
  | ok => rfl

/-- Serving writes by the call of the request, or not at all; then there
is no answer. -/
theorem serve_db :
    request.serve hashToken token candidateID now db = (none, db)
      ∨ (request.serve hashToken token candidateID now db).2
        = apply db (request.action hashToken token candidateID now) := by
  cases request with
  | openOverlay =>
      simp only [Request.serve]
      split
      case isTrue => exact .inl rfl
      case isFalse =>
        right
        have hsnd : apply db (.openPlayer (hashToken token) candidateID now)
          = (openPlayer (hashToken token) candidateID now db).2 := rfl
        simp only [Request.action]
        rw [hsnd]
        split
        case h_1 he => rw [he]
        case h_2 he => rw [he]
  | _ =>
      simp only [Request.serve]
      split
      case isTrue => exact .inl rfl
      case isFalse => exact .inr (acknowledged_snd _)

/-- Only an open is answered with a player, the one that was drawn. -/
theorem serve_opened {player : OpenedPlayer}
    (h : (request.serve hashToken token candidateID now db).1
      = some (.opened player)) :
    request = .openOverlay ∧ player.playerID = candidateID := by
  cases request with
  | openOverlay =>
      simp only [Request.serve] at h
      split at h
      case isTrue => cases h
      case isFalse =>
        split at h
        case h_1 userID opened db hopened =>
          cases h
          refine ⟨rfl, ?_⟩
          unfold openPlayer at hopened
          split at hopened
          case h_1 => cases hopened
          case h_2 =>
            simp only at hopened
            split at hopened
            case h_1 =>
              cases hopened
              rfl
            case h_2 =>
              split at hopened
              case isTrue =>
                cases hopened
                rfl
              case isFalse =>
                cases hopened
                rfl
        case h_2 => cases h
  | _ =>
      simp only [Request.serve] at h
      split at h
      case isTrue => cases h
      case isFalse => exact absurd h acknowledged_opened

theorem serve_started
    (h : (Request.serve hashToken token candidateID now db
      (.started playerID generation playbackID)).1 = some .done) :
    (startPlayback (hashToken token) playerID generation playbackID now
      db).1 = .ok () := by
  simp only [Request.serve] at h
  split at h
  case isTrue => cases h
  case isFalse => exact acknowledged_done h

namespace Screens

/-- The system admits what a page asks for. -/
theorem Good.admits (h : Good s)
    (hsent : (s.pages page).sent[number]? = some request)
    (hnew : ∀ playerID ∈ request.drawn candidateID,
      playerID ∉ s.players) :
    Admits s.clock s.players s.db
      (request.action hashToken token candidateID s.clock) := by
  have hmem := List.mem_of_getElem? hsent
  have hlog := (h.reached page).sound.log
  cases request with
  | openOverlay =>
      refine ⟨?_, ?_, ?_, ?_, ?_⟩ <;> intros <;> rename_i he <;> cases he
      exact ⟨hnew candidateID (List.mem_singleton_self _), le_rfl⟩
  | heartbeat playerID generation active visible =>
      refine ⟨?_, ?_, ?_, ?_, ?_⟩ <;> intros <;> rename_i he <;> cases he
      exact ⟨rfl, hlog.beats _ _ _ _ hmem⟩
  | started =>
      refine ⟨?_, ?_, ?_, ?_, ?_⟩ <;> intros <;> rename_i he <;> cases he
  | finished playerID generation playbackID outcome =>
      refine ⟨?_, ?_, ?_, ?_, ?_⟩ <;> intros <;> rename_i he <;> cases he
      -- What is interrupted was shown, and its start acknowledged.
      obtain ⟨object, identity, playback, hended, horigin, rfl, rfl, rfl⟩ :=
        hlog.finished _ _ _ _ hmem
      obtain ⟨identity', playback', horigin', n, hn, hasked⟩ :=
        hlog.acked object (hlog.ended _ hended)
      rw [horigin] at horigin'
      cases horigin'
      exact (h.started _ _ _ ⟨page, n, h.answered page n hn, hasked⟩).2
  | diagnostic =>
      refine ⟨?_, ?_, ?_, ?_, ?_⟩ <;> intros <;> rename_i he <;> cases he

/-- The service serves a request for the first time. -/
theorem Good.serve (h : Good s)
    (hsent : (s.pages page).sent[number]? = some request)
    (hnew : ∀ playerID ∈ request.drawn candidateID,
      playerID ∉ s.players) :
    Good (s.serve hashToken tokens page number candidateID request) := by
  have hsub : s.players ⊆ request.drawn candidateID ++ s.players :=
    List.subset_append_right _ _
  have hdb : request.serve hashToken (tokens page) candidateID s.clock s.db
        = (none, s.db)
      ∨ (request.serve hashToken (tokens page) candidateID s.clock s.db).2
        = apply s.db (request.action hashToken (tokens page) candidateID
          s.clock) := serve_db
  rcases hdb with hnone | hdb
  · unfold Screens.serve
    simp only [hnone]
    exact (h.wasted hsub).replied hsent (fun _ he => by cases he)
      (fun _ _ _ he => by cases he)
  · have hadmits : Admits s.clock s.players s.db
        (request.action hashToken (tokens page) candidateID s.clock) :=
      h.admits hsent hnew
    have hopens : (request.action hashToken (tokens page) candidateID
        s.clock).opens = request.drawn candidateID := by
      cases request <;> rfl
    have hdrawn : (request.action hashToken (tokens page) candidateID
        s.clock).drawn = [] := by
      cases request <;> rfl
    have hcalled := h.called hadmits (by rw [hdrawn]; simp)
      (List.Subset.refl _)
    rw [hopens] at hcalled
    rw [hdrawn, ← hdb] at hcalled
    refine hcalled.replied hsent ?_ ?_
    · intro player he
      obtain ⟨rfl, rfl⟩ := serve_opened he
      have hfresh := hnew _ (List.mem_singleton_self _)
      refine ⟨List.mem_append_left _ (List.mem_singleton_self _), ?_⟩
      intro key player' hreply hid
      exact hfresh (hid ▸ h.opened key player' hreply)
    · rintro playerID generation playbackID he rfl
      obtain ⟨⟨r, hr, hid, hplayer, hgeneration⟩, hstarted⟩ :=
        started_of_ok h.inv (serve_started he)
      subst hid
      refine ⟨h.rows r hr, ?_, fun playerID' generation' hg => ?_⟩
      · show Started playerID generation r.playbackID (Request.serve _ _ _ _
          _ _).2
        rw [hdb]
        exact hstarted
      · -- Who started it before is in the row.
        have hrow := (h.started _ _ _ hg).2 r hr rfl
        have hsame := hrow.2.2
        rw [hplayer, hgeneration] at hsame
        exact ⟨Option.some.inj hsame.1, Option.some.inj hsame.2⟩

-- ================================ the system

/-- A connection gets another state, which is linked as well. -/
theorem Good.connect (h : Good s) {c : Connection}
    (hidentity : (s.pages page).connected[stream]? = some identity)
    (hlinked : Linked identity.playerID identity.generation
      ((s.connect page stream c).emitted page stream) s.playbacks s.clock
      s.db c.stream.point) :
    Good (s.connect page stream c) where
  inv := h.inv
  listed := h.listed
  rows := h.rows
  reached := h.reached
  served := h.served
  asked := h.asked
  opened := h.opened
  owners := h.owners
  taken := h.taken
  answered := h.answered
  started := h.started
  agreed := h.agreed
  links other stream' identity' hidentity' := by
    by_cases hne : (other, stream') = (page, stream)
    case pos =>
      cases hne
      have hsame : (s.pages page).connected[stream]? = some identity' :=
        hidentity'
      rw [hidentity] at hsame
      cases hsame
      show Linked _ _ _ _ _ _ (Function.update s.connections page _ page
        stream).stream.point
      rw [Function.update_self, Function.update_self]
      exact hlinked
    case neg =>
      have hother := connect_other (s := s) (c := c) hne
      have hemitted : (s.connect page stream c).emitted other stream'
          = s.emitted other stream' := by
        unfold emitted
        rw [hother]
        rfl
      rw [hother, hemitted]
      exact h.links other stream' identity' hidentity'
  unopened other stream' hnone := by
    by_cases hne : (other, stream') = (page, stream)
    case pos =>
      cases hne
      have hnone : (s.pages page).connected[stream]? = none := hnone
      rw [hidentity] at hnone
      cases hnone
    case neg =>
      rw [connect_other hne]
      exact h.unopened other stream' hnone

/-- A connection takes its next turn. -/
theorem Good.turn (h : Good s) {turn : Turn}
    (hidentity : (s.pages page).connected[stream]? = some identity) :
    Good (s.turn hashToken tokens page stream identity turn) := by
  let session : Session :=
    { db := s.db, stream := (s.connections page stream).stream }
  let request : StreamRequest :=
    ⟨tokens page, identity.playerID, identity.generation⟩
  let next := session.advance hashToken request { turn with now := s.clock }
  have hlinked : Linked request.playerID request.generation
      (s.emitted page stream) s.playbacks s.clock session.db
      session.stream.point := h.links page stream identity hidentity
  have hplayer : request.playerID ∈ s.players := h.player hidentity
  have hnext : Linked request.playerID request.generation
      (s.emitted page stream ++ emittedIDs next.log) s.playbacks s.clock
      next.db next.stream.point :=
    linked_advance h.inv h.listed h.rows rfl hplayer rfl hlinked
  have hcalls : next.db = s.db ∨ ∃ a, next.db = apply s.db a
      ∧ Called hashToken request { turn with now := s.clock }
        session.stream.point a := calls_advance session
  have hgood : Good { s with db := next.db } := by
    rcases hcalls with hsame | ⟨a, hdb, hcalled⟩
    · rw [hsame]
      exact h
    · have hadmits : Admits s.clock s.players s.db a
          ∧ a.drawn = [] ∧ a.opens = [] := hcalled.admits rfl hlinked.holds
      obtain ⟨ha, hdrawn, hopens⟩ := hadmits
      have hcall := h.called ha (by rw [hdrawn]; simp)
        (List.Subset.refl _)
      rw [hdrawn, hopens, ← hdb] at hcall
      exact hcall
  refine hgood.connect hidentity ?_
  unfold emitted
  rw [connect_self, List.filterMap_append, ← List.append_assoc]
  exact hnext

theorem mem_of_lookup {key : Nat × Nat} {reply : Reply}
    (h : s.replies.lookup key = some reply) : (key, reply) ∈ s.replies := by
  obtain ⟨before, after, he, -⟩ := List.lookup_eq_some_iff.mp h
  rw [he]
  exact List.mem_append_right _ List.mem_cons_self

/-- Whatever happens, pages and service agree. -/
theorem Good.step (h : Good s) (happening : Happening) :
    Good (s.step hashToken tokens happening) := by
  cases happening with
  | tick elapsed => exact h.ticked elapsed
  | input page input =>
      unfold Screens.step
      simp only
      split
      case isTrue hown =>
        exact h.onPage (Page.addsNothing_step hown _)
          (fun _ ht => by cases ht) (fun _ hn => by cases hn)
      case isFalse => exact h
  | serve page number candidateID =>
      unfold Screens.step
      simp only
      split
      case h_1 => exact h
      case h_2 request hsent =>
        split
        case isTrue => exact h
        case isFalse hfresh =>
          exact h.serve hsent fun playerID hd hp =>
            hfresh (.inr ⟨playerID, hd, hp⟩)
  | answer page number =>
      unfold Screens.step
      simp only
      split
      case h_1 => exact h
      case h_2 player hreply =>
        have hmem := mem_of_lookup hreply
        rcases Page.adds_opened number player (s.pages page) with
          hadds | hadds
        · exact h.onPage hadds (fun _ ht => by cases ht)
            (fun _ hn => by cases hn)
        · refine h.onPage hadds (fun t ht => ?_) (fun _ hn => by cases hn)
          rw [List.mem_singleton.mp ht]
          exact hmem
      case h_3 hreply =>
        have hmem := mem_of_lookup hreply
        rcases Page.adds_done number (s.pages page) with hadds | hadds
        · exact h.onPage hadds (fun _ ht => by cases ht)
            (fun _ hn => by cases hn)
        · refine h.onPage hadds (fun _ ht => by cases ht) fun n hn => ?_
          rw [List.mem_singleton.mp hn]
          exact hmem
  | turn page stream turn =>
      unfold Screens.step
      simp only
      split
      case h_1 => exact h
      case h_2 identity hidentity => exact h.turn hidentity
  | deliver page stream =>
      unfold Screens.step
      simp only
      split
      case h_1 => exact h
      case h_2 event queue hqueue => exact h.delivered hqueue
  | call action =>
      unfold Screens.step
      simp only
      split
      case isTrue => exact h
      case isFalse hfree =>
        have hown : ¬ action.ofPlayer = true := fun ho => hfree (.inl ho)
        have hopens : action.opens ++ s.players ⊆ s.players := by
          cases action <;> first
            | exact List.Subset.refl _
            | exact absurd rfl hown
        refine h.called ?_ (fun playbackID hd hp =>
          hfree (.inr ⟨playbackID, hd, hp⟩)) hopens
        refine ⟨?_, ?_, ?_, ?_, ?_⟩ <;> intros <;> subst_vars <;>
          exact absurd rfl hown

theorem Good.init : Good {} where
  inv := Inv.init
  listed := ⟨fun x hx => absurd hx Table.not_mem_empty,
    fun x hx => absurd hx Table.not_mem_empty⟩
  rows r hr := absurd hr Table.not_mem_empty
  reached _ := reached_first
  served _ he := by cases he
  asked _ he := by cases he
  opened _ _ he := by cases he
  owners _ _ _ _ he := by cases he
  taken _ _ ht := by cases ht
  answered _ _ hn := by cases hn
  started _ _ _ hg := by
    obtain ⟨_, _, he, -⟩ := hg
    cases he
  agreed _ _ _ _ _ hg := by
    obtain ⟨_, _, he, -⟩ := hg
    cases he
  links _ _ _ hidentity := by cases hidentity
  unopened _ _ _ := rfl

-- ================================ shown once

/-- What is shown was started by the player that it came to. -/
theorem Good.shown (h : Good s) {object : Nat}
    (hshows : s.Shows page object playbackID) :
    ∃ stream identity playback,
      (s.pages page).received[object]? = some (stream, playback)
        ∧ (s.pages page).connected[stream]? = some identity
        ∧ playback.playbackID = playbackID
        ∧ s.Granted identity.playerID identity.generation playbackID := by
  obtain ⟨hmem, identity, playback, horigin, rfl⟩ := hshows
  obtain ⟨identity', playback', horigin', number, hn, hasked⟩ :=
    (h.reached page).sound.log.acked object hmem
  rw [horigin] at horigin'
  obtain ⟨rfl, rfl⟩ := Prod.mk.inj (Option.some.inj horigin')
  unfold Log.origin at horigin
  obtain ⟨⟨stream, received⟩, hr, hx⟩ := Option.bind_eq_some_iff.mp horigin
  obtain ⟨connected, hc, he⟩ := Option.map_eq_some_iff.mp hx
  obtain ⟨rfl, rfl⟩ := Prod.mk.inj he
  exact ⟨stream, connected, received, hr, hc, rfl, page, number,
    h.answered page number hn, hasked⟩

/-- A connection brings a playback once. -/
theorem Good.unique (h : Good s) {object object' : Nat}
    {playback playback' : Playback}
    (hidentity : (s.pages page).connected[stream]? = some identity)
    (hr : (s.pages page).received[object]? = some (stream, playback))
    (hr' : (s.pages page).received[object']? = some (stream, playback'))
    (hsame : playback.playbackID = playback'.playbackID) :
    object = object' := by
  have honce := (h.links page stream identity hidentity).once
  unfold emitted at honce
  have hreceived := (List.nodup_append.mp honce).1
  rw [List.Nodup, List.pairwise_map, List.pairwise_filter,
    List.pairwise_iff_getElem] at hreceived
  obtain ⟨hlt, he⟩ := List.getElem?_eq_some_iff.mp hr
  obtain ⟨hlt', he'⟩ := List.getElem?_eq_some_iff.mp hr'
  rcases lt_trichotomy object object' with hless | heq | hless
  · have hne := hreceived object object' hlt hlt' hless
    rw [he, he'] at hne
    exact absurd hsame (hne (by simp) (by simp))
  · exact heq
  · have hne := hreceived object' object hlt' hlt hless
    rw [he, he'] at hne
    exact absurd hsame.symm (hne (by simp) (by simp))

/-- Over all pages, where each page commits an update before its next
handler runs: a playback is shown once at most, whatever is lost or late,
and whoever else uses the store; and what was shown is recorded as
started by the player that showed it, and waits never again. -/
theorem shown_once (hashToken : String → TokenHash)
    (tokens : Nat → String) (happenings : List Happening) :
    let s := Run.run (step hashToken tokens) {} happenings
    (∀ page object page' object' playbackID,
      s.Shows page object playbackID → s.Shows page' object' playbackID →
      page = page' ∧ object = object')
    ∧ ∀ page object playbackID, s.Shows page object playbackID →
      ∃ stream identity playback,
        (s.pages page).received[object]? = some (stream, playback)
        ∧ (s.pages page).connected[stream]? = some identity
        ∧ playback.playbackID = playbackID
        ∧ ∀ r ∈ s.db.playbacks, r.playbackID = playbackID →
          r.startedAt ≠ none ∧ r.playerID = some identity.playerID
            ∧ r.playerGeneration = some identity.generation
            ∧ ¬ r.status.Waiting := by
  intro s
  have h : Good s :=
    Run.run_preserves Good.init (fun _ happening h => h.step happening)
      happenings
  refine ⟨fun page object page' object' playbackID hshows hshows' => ?_,
    fun page object playbackID hshows => ?_⟩
  · obtain ⟨stream, identity, playback, hr, hidentity, hid, hgranted⟩ :=
      h.shown hshows
    obtain ⟨stream', identity', playback', hr', hidentity', hid',
      hgranted'⟩ := h.shown hshows'
    have hplayer := (h.agreed _ _ _ _ _ hgranted hgranted').1
    obtain ⟨rfl, rfl⟩ := h.connection hidentity hidentity' hplayer
    exact ⟨rfl, h.unique hidentity hr hr' (hid.trans hid'.symm)⟩
  · obtain ⟨stream, identity, playback, hr, hidentity, hid, hgranted⟩ :=
      h.shown hshows
    refine ⟨stream, identity, playback, hr, hidentity, hid,
      fun r hmem hrid => ?_⟩
    obtain ⟨hshape, hstart, hplayer, hgeneration⟩ :=
      (h.started _ _ _ hgranted).2 r hmem hrid
    exact ⟨hstart, hplayer, hgeneration,
      fun hwaits => hstart (hshape.waiting hwaits).1⟩

end Screens

end StreamBrew.Alert.Overlay
