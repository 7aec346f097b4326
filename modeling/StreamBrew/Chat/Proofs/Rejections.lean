/-
Refreshes, reconnects and rejections against one connection.

# Provenance

A refresh works on a copy of what was stored (`Sourced`), a renewal has
a refresh token, and a rejection is an answer the provider gave about
that very copy (`Rejected`). With the copy's version still stored, the
row has the copy's secrets (`Copied.current`): what is replaced is what
was renewed, and what is marked is what was rejected.

# The mark

`refresh_required` stands for a rejection of the secrets it stands
beside: every write that replaces them clears it (`marked_step`).
-/
import StreamBrew.Chat.Proofs.Credentials

namespace StreamBrew.Chat

open Relational Generation

variable {refreshID : Nat} {source : ConnectedSource}

variable {s : Service} {r r' : Connection} {acts : List Action}
  {configs : Provider → Option RefreshConfig}

-- ================================ rejections

/-- The credentials that the provider rejects in a step, for good. -/
def rejection (configs : Provider → Option RefreshConfig) (s : Service) :
    Action → Option ConnectedSource
  | .reject source => if source ∈ s.held then some source else none
  | .exchange refreshID now state answer =>
      match s.refreshes[refreshID]? with
      | some { source, stage := .asking } =>
          match refreshed configs now state source answer with
          | .ok _ => none
          | .error e =>
              if requiresReauthorization e then some source else none
      | _ => none
  | _ => none

/-- The provider has rejected them at some moment of the run. -/
def Rejected (configs : Provider → Option RefreshConfig)
    (acts : List Action) (source : ConnectedSource) : Prop :=
  source ∈ Run.log (Service.step configs)
    (fun s a => (rejection configs s a).toList) Service.init acts

theorem rejected_snoc {a : Action} :
    Rejected configs (acts ++ [a]) source
      ↔ Rejected configs acts source
        ∨ rejection configs (runTo configs acts) a = some source := by
  unfold Rejected
  rw [Run.log_append, Run.log, Run.log, List.append_nil, List.mem_append,
    Option.mem_toList]

-- ================================ provenance

/-- What a refresh works on. -/
structure Sourced (configs : Provider → Option RefreshConfig)
    (acts : List Action) (refresh : Refresh) : Prop where
  copied : Copied configs acts refresh.source
  renewing : ∀ renewal, refresh.stage = .renewing renewal →
    renewal.refreshToken ≠ ""
  rejecting : refresh.stage = .rejecting →
    Rejected configs acts refresh.source

theorem Sourced.snoc {refresh : Refresh} (h : Sourced configs acts refresh)
    (a : Action) : Sourced configs (acts ++ [a]) refresh where
  copied := h.copied.snoc a
  renewing := h.renewing
  rejecting := fun hstage => rejected_snoc.mpr (Or.inl (h.rejecting hstage))

/-- Everything that is held or refreshed comes from the run. -/
structure Provenance (configs : Provider → Option RefreshConfig)
    (acts : List Action) (s : Service) : Prop where
  held : ∀ source ∈ s.held, Copied configs acts source
  refreshes : ∀ refresh ∈ s.refreshes, Sourced configs acts refresh

theorem Provenance.snoc (h : Provenance configs acts s) (a : Action) :
    Provenance configs (acts ++ [a]) s where
  held := fun source hmem => (h.held source hmem).snoc a
  refreshes := fun refresh hmem => (h.refreshes refresh hmem).snoc a

/-- The stage of one refresh is replaced. -/
theorem mem_setStage {stage : RefreshStage}
    {old refresh : Refresh} (hold : s.refreshes[refreshID]? = some old)
    (h : refresh ∈ (s.setStage refreshID stage).refreshes) :
    refresh ∈ s.refreshes ∨ refresh = { old with stage } := by
  unfold Service.setStage at h
  obtain ⟨i, hi⟩ := List.mem_iff_getElem?.mp h
  rw [List.getElem?_modify] at hi
  split at hi
  case isTrue heq =>
    subst heq
    rw [hold] at hi
    exact Or.inr (Option.some.inj hi).symm
  case isFalse =>
    rw [id_map'] at hi
    exact Or.inl (List.mem_of_getElem? hi)

/-- A stage may be replaced by one that its source supports. -/
theorem Provenance.setStage (h : Provenance configs acts s)
    {stage : RefreshStage} {old : Refresh}
    (hold : s.refreshes[refreshID]? = some old)
    (hrenewing : ∀ renewal, stage = .renewing renewal →
      renewal.refreshToken ≠ "")
    (hrejecting : stage = .rejecting → Rejected configs acts old.source) :
    Provenance configs acts (s.setStage refreshID stage) where
  held := h.held
  refreshes := fun refresh hmem => by
    rcases mem_setStage hold hmem with hsame | rfl
    · exact h.refreshes refresh hsame
    · have hcopied := (h.refreshes old (List.mem_of_getElem? hold)).copied
      exact ⟨hcopied, hrenewing, hrejecting⟩

/-- An ended refresh needs no support. -/
theorem Provenance.ended (h : Provenance configs acts s)
    {old : Refresh} (hold : s.refreshes[refreshID]? = some old) :
    Provenance configs acts (s.setStage refreshID .ended) :=
  h.setStage hold (fun _ he => by cases he) (fun he => by cases he)

/-- What was stored holds the row that it was stored in. -/
theorem Holds.renewed {renewal : Renewal}
    (h : Holds source r) (hrefresh : renewal.refreshToken ≠ "") :
    Holds (source.renewed renewal (r.tokenVersion + 1))
      (r.renew renewal.accessToken renewal.refreshToken
        renewal.expiresAt) where
  id := h.id
  version := rfl
  accessToken := rfl
  refreshToken := by
    show ((optional renewal.refreshToken).or r.refreshToken).getD ""
      = renewal.refreshToken
    unfold optional
    rw [if_neg hrefresh]
    rfl
  deviceID := h.deviceID
  scopes := h.scopes

/-- The guarded write hands out what it has stored. -/
theorem Provenance.write
    {renewal : Renewal} (h : Provenance configs acts (runTo configs acts))
    (hstage : (runTo configs acts).refreshes[refreshID]?
      = some ⟨source, .renewing renewal⟩) :
    Provenance configs (acts ++ [.write refreshID])
      ((runTo configs acts).write refreshID source renewal) := by
  have hsourced := h.refreshes _ (List.mem_of_getElem? hstage)
  have hended := (h.snoc (.write refreshID)).ended hstage
  have hrun : runTo configs (acts ++ [.write refreshID])
      = (runTo configs acts).write refreshID source renewal := by
    rw [runTo_snoc]
    simp only [Service.step, hstage]
  have hdb : ((runTo configs acts).write refreshID source
      renewal).db.connections
      = (runTo configs acts).db.connections.update
        (Connection.At source.source.connectionID
          source.credentials.tokenVersion)
        (Connection.renew renewal.accessToken renewal.refreshToken
          renewal.expiresAt) (Table.keeps rfl) := by
    unfold Service.write updateConnectionCredentials
    simp only
    split <;> rfl
  rw [← hrun] at hdb
  unfold Service.write updateConnectionCredentials
  simp only
  split
  case h_1 => exact ⟨hended.held, hended.refreshes⟩
  case h_2 tokenVersion hversion =>
    refine ⟨fun held hmem => ?_, hended.refreshes⟩
    rcases List.mem_cons.mp hmem with rfl | hold
    · obtain ⟨r, hfound, rfl⟩ := Option.map_eq_some_iff.mp hversion
      obtain ⟨hr, hat⟩ := Table.find?_eq_some hfound
      have hholds := (hsourced.copied.current hr hat).renewed
        (hsourced.renewing renewal rfl)
      refine ⟨acts ++ [.write refreshID], List.prefix_rfl, _, ?_, hholds⟩
      rw [hdb, Table.mem_update]
      exact ⟨r, hr, if_pos hat⟩
    · exact hended.held held hold

/-- One step keeps the provenance of everything. -/
theorem Provenance.step (h : Provenance configs acts (runTo configs acts))
    (a : Action) : Provenance configs (acts ++ [a])
      ((runTo configs acts).step configs a) := by
  have hsame := h.snoc a
  cases a with
  | connect userID connection source =>
      exact ⟨hsame.held, hsame.refreshes⟩
  | disconnect userID connectionID => exact ⟨hsame.held, hsame.refreshes⟩
  | setSourceEnabled userID sourceID enabled =>
      exact ⟨hsame.held, hsame.refreshes⟩
  | load source =>
      unfold Service.step
      simp only
      split
      case isFalse => exact hsame
      case isTrue hloaded =>
        refine ⟨fun held hmem => ?_, hsame.refreshes⟩
        rcases List.mem_cons.mp hmem with rfl | hold
        · exact ⟨acts, List.prefix_append acts _, holds_of_load hloaded⟩
        · exact hsame.held held hold
  | refresh source =>
      unfold Service.step
      simp only
      split
      case isFalse => exact hsame
      case isTrue hheld =>
        refine ⟨hsame.held, fun refresh hmem => ?_⟩
        rcases List.mem_append.mp hmem with hold | hnew
        · exact hsame.refreshes refresh hold
        · rw [List.mem_singleton.mp hnew]
          exact ⟨hsame.held source hheld, fun _ he => (by cases he),
            fun he => (by cases he)⟩
  | reject source =>
      unfold Service.step
      simp only
      split
      case isFalse => exact hsame
      case isTrue hheld =>
        refine ⟨hsame.held, fun refresh hmem => ?_⟩
        rcases List.mem_append.mp hmem with hold | hnew
        · exact hsame.refreshes refresh hold
        · rw [List.mem_singleton.mp hnew]
          have hrejected : rejection configs (runTo configs acts)
              (.reject source) = some source := if_pos hheld
          exact ⟨hsame.held source hheld, fun _ he => (by cases he),
            fun _ => rejected_snoc.mpr (Or.inr hrejected)⟩
  | exchange refreshID now state answer =>
      have hrejects : rejection configs (runTo configs acts)
          (.exchange refreshID now state answer)
          = match (runTo configs acts).refreshes[refreshID]? with
            | some { source, stage := .asking } =>
                match refreshed configs now state source answer with
                | .ok _ => none
                | .error e =>
                    if requiresReauthorization e then some source else none
            | _ => none := rfl
      unfold Service.step
      simp only
      split
      case h_2 => exact hsame
      case h_1 source hstage =>
        rw [hstage] at hrejects
        simp only at hrejects
        split
        case h_1 => exact hsame.ended hstage
        case h_2 renewal hrenewed =>
          refine hsame.setStage hstage (fun other he => ?_)
            (fun he => by cases he)
          cases he
          exact refreshed_refreshToken hrenewed
        case h_3 e herror =>
          rw [herror] at hrejects
          split
          case isTrue hrequires =>
            refine hsame.setStage hstage (fun _ he => by cases he)
              (fun _ => rejected_snoc.mpr (Or.inr ?_))
            rw [hrejects]
            exact if_pos hrequires
          case isFalse => exact hsame.ended hstage
  | write refreshID =>
      unfold Service.step
      simp only
      split
      case h_1 source renewal hstage => exact h.write hstage
      case h_2 => exact hsame
  | mark refreshID =>
      unfold Service.step
      simp only
      split
      case h_1 source hstage =>
        have hended := hsame.ended hstage
        exact ⟨hended.held, hended.refreshes⟩
      case h_2 => exact hsame

theorem provenance (acts : List Action) :
    Provenance configs acts (runTo configs acts) := by
  induction acts using List.reverseRecOn with
  | nil =>
      exact ⟨fun _ hmem => absurd hmem List.not_mem_nil,
        fun _ hmem => absurd hmem List.not_mem_nil⟩
  | append_singleton acts a ih =>
      rw [runTo_snoc]
      exact ih.step a

-- ================================== the mark

/-- A marked row holds secrets that were rejected. -/
def Marked (configs : Provider → Option RefreshConfig)
    (acts : List Action) (r : Connection) : Prop :=
  r.status = .refreshRequired → ∃ source,
    Rejected configs acts source ∧ Holds source r

/-- The row of a connection before and after a step. -/
theorem evolves_of_id (a : Action)
    (hr : r ∈ (runTo configs acts).db.connections)
    (hr' : r' ∈ ((runTo configs acts).step configs a).db.connections)
    (hid : r'.connectionID = r.connectionID) :
    Evolves (runTo configs acts) a r r' := by
  rcases origin_step a hr' with ⟨origin, horigin, hevolves⟩ | hcreated
  · have heq : origin = r :=
      Table.eq_of_key horigin hr (hevolves.id.symm.trans hid)
    exact heq ▸ hevolves
  · have hlt := drawn_run configs acts r hr
    rw [← hid, hcreated.id] at hlt
    exact absurd hlt (Nat.lt_irrefl _)

/-- What is marked is what was rejected. -/
theorem rejected_of_stage (hr : r ∈ (runTo configs acts).db.connections)
    (hstage : (runTo configs acts).refreshes[refreshID]?
      = some ⟨source, .rejecting⟩)
    (hat : r.At source.source.connectionID
      source.credentials.tokenVersion) :
    Rejected configs acts source ∧ Holds source r := by
  have hsourced := (provenance acts).refreshes _
    (List.mem_of_getElem? hstage)
  exact ⟨hsourced.rejecting rfl, hsourced.copied.current hr hat⟩

/-- A row is marked by a rejection of its own version only. -/
theorem marked_step (a : Action)
    (h : ∀ r ∈ (runTo configs acts).db.connections, Marked configs acts r)
    (hr' : r' ∈ ((runTo configs acts).step configs a).db.connections) :
    Marked configs (acts ++ [a]) r' := by
  intro hstatus
  rcases origin_step a hr' with ⟨r, hr, hevolves⟩ | hcreated
  · cases hevolves with
    | keep =>
        obtain ⟨source, hrejected, hholds⟩ := h _ hr hstatus
        exact ⟨source, rejected_snoc.mpr (Or.inl hrejected), hholds⟩
    | reconnect => cases hstatus
    | renew => cases hstatus
    | @mark refreshID source _ hstage hat =>
        obtain ⟨hrejected, hholds⟩ := rejected_of_stage hr hstage hat
        exact ⟨source, rejected_snoc.mpr (Or.inl hrejected),
          hholds.of_secrets rfl rfl rfl⟩
  · rw [hcreated.status] at hstatus
    cases hstatus

theorem marked_run (acts : List Action) :
    ∀ r ∈ (runTo configs acts).db.connections, Marked configs acts r := by
  induction acts using List.reverseRecOn with
  | nil => exact fun _ hr => absurd hr Table.not_mem_empty
  | append_singleton acts a ih =>
      intro r hr
      rw [runTo_snoc] at hr
      exact marked_step a ih hr

-- =========================== compare and set

/-- One step of a connection: its version grows with its secrets, a
renewal replaces only the secrets that it renews, and a mark is set only
beside the secrets that were rejected. -/
theorem guarded_step (a : Action)
    (hr : r ∈ (runTo configs acts).db.connections)
    (hr' : r' ∈ ((runTo configs acts).step configs a).db.connections)
    (hid : r'.connectionID = r.connectionID) :
    (∀ refreshID source renewal, a = .write refreshID →
        (runTo configs acts).refreshes[refreshID]?
          = some ⟨source, .renewing renewal⟩ →
        r' = r ∨ Holds source r)
      ∧ (r'.status = .refreshRequired → r.status ≠ .refreshRequired →
        ∃ source, Rejected configs acts source ∧ Holds source r
          ∧ Holds source r')
      ∧ ∀ refreshID source, a = .mark refreshID →
        (runTo configs acts).refreshes[refreshID]?
          = some ⟨source, .rejecting⟩ →
        source.credentials.tokenVersion ≠ r.tokenVersion → r' = r := by
  have hevolves := evolves_of_id a hr hr' hid
  refine ⟨?_, ?_, ?_⟩
  · intro refreshID source renewal ha hstage
    subst ha
    cases hevolves with
    | keep => exact Or.inl rfl
    | renew hother hat =>
        rw [hstage] at hother
        cases hother
        have hcopied := ((provenance acts).refreshes _
          (List.mem_of_getElem? hstage)).copied
        exact Or.inr (hcopied.current hr hat)
  · intro hstatus hbefore
    cases hevolves with
    | keep => exact absurd hstatus hbefore
    | reconnect => cases hstatus
    | renew => cases hstatus
    | @mark refreshID source _ hstage hat =>
        obtain ⟨hrejected, hholds⟩ := rejected_of_stage hr hstage hat
        exact ⟨source, hrejected, hholds, hholds.of_secrets rfl rfl rfl⟩
  · intro refreshID source ha hstage hversion
    subst ha
    cases hevolves with
    | keep => rfl
    | mark hother hat =>
        rw [hstage] at hother
        cases hother
        exact absurd hat.2.symm hversion

/-- The credentials of a connection on every run of any number of
service instances. -/
theorem credentials_compare_and_set
    (configs : Provider → Option RefreshConfig) (acts : List Action) :
    (∀ before, before <+: acts →
      ∀ r ∈ (runTo configs before).db.connections,
      ∀ r' ∈ (runTo configs acts).db.connections,
      r'.connectionID = r.connectionID →
      r.tokenVersion ≤ r'.tokenVersion
        ∧ (r'.toSecrets ≠ r.toSecrets → r.tokenVersion < r'.tokenVersion))
    ∧ (∀ r ∈ (runTo configs acts).db.connections,
      r.status = .refreshRequired → ∃ source,
        Rejected configs acts source ∧ Holds source r)
    ∧ ∀ a, ∀ r ∈ (runTo configs acts).db.connections,
      ∀ r' ∈ ((runTo configs acts).step configs a).db.connections,
      r'.connectionID = r.connectionID →
      (∀ refreshID source renewal, a = .write refreshID →
        (runTo configs acts).refreshes[refreshID]?
          = some ⟨source, .renewing renewal⟩ →
        r' = r ∨ Holds source r)
      ∧ (r'.status = .refreshRequired → r.status ≠ .refreshRequired →
        ∃ source, Rejected configs acts source ∧ Holds source r
          ∧ Holds source r')
      ∧ ∀ refreshID source, a = .mark refreshID →
        (runTo configs acts).refreshes[refreshID]?
          = some ⟨source, .rejecting⟩ →
        source.credentials.tokenVersion ≠ r.tokenVersion → r' = r := by
  refine ⟨fun before hbefore r hr r' hr' hid => ?_, marked_run acts,
    fun a r hr r' hr' hid => guarded_step a hr hr' hid⟩
  obtain ⟨hgrows, hsame⟩ := versions_grow hbefore hr hr' hid
  refine ⟨hgrows, fun hchanged => Nat.lt_of_le_of_ne hgrows fun heq => ?_⟩
  exact hchanged (hsame heq.symm)

end StreamBrew.Chat
