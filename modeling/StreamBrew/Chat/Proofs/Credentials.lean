/-
Credentials are replaced only by whom they were replaced for.

# Generations

A connection is a register: its identifier is the epoch, the token
version the version, and the secrets are the content. Every store call
is one step of every connection (`renews_step`), and no identifier is
drawn twice (`draws_distinct`), so a version of a connection stands for
the same secrets at all times (`Generation.run_generation_unique`).

# Holders

What anyone holds is a copy of what was stored once (`Copied`). A
guarded write finds the version that it was guarded by, and so the very
secrets that it started from.
-/
import StreamBrew.Lib.Registers
import StreamBrew.Chat.Refresh

namespace StreamBrew.Chat

open Relational Generation
open Alert (UserID Time jsDate)

variable {connectionID : ConnectionID} {source : ConnectedSource}

variable {db db' : Db} {s : Service} {r r' : Connection}
  {configs : Provider → Option RefreshConfig}

/-- The generation of a connection. -/
def Connection.stamped (r : Connection) : Stamped ConnectionID Secrets where
  epoch := r.connectionID
  version := r.tokenVersion
  content := r.toSecrets

-- ================================= the calls

theorem connections_saveSource {userID : UserID}
    {source : SaveSource} {position : Nat} {sourceID : SourceID}
    (h : saveSource userID connectionID source position db
      = .ok (sourceID, db')) :
    db'.connections = db.connections
      ∧ db'.connectionIDs = db.connectionIDs := by
  unfold saveSource at h
  simp only at h
  split at h
  case isTrue => cases h
  case isFalse =>
    split at h
    case h_1 =>
      split at h
      case h_1 =>
        cases h
        exact ⟨rfl, rfl⟩
      case h_2 => cases h
    case h_2 =>
      cases h
      exact ⟨rfl, rfl⟩

/-- What saveConnection does: it inserts a new row, or replaces the
secrets of the owner's. -/
theorem saveConnection_cases {userID : UserID} {connection : SaveConnection}
    (h : saveConnection userID connection db = .ok (connectionID, db')) :
    db'.connectionIDs = db.connectionIDs + 1 ∧ db'.sources = db.sources
      ∧ ((db.connections.insert? (connection.row userID db.connectionIDs)
            = some db'.connections
          ∧ connectionID = db.connectionIDs)
        ∨ ∃ current ∈ db.connections, current.userID = userID
          ∧ connectionID = current.connectionID
          ∧ db'.connections = db.connections.update
            (fun r => r.connectionID = current.connectionID)
            connection.reconnect (Table.keeps rfl)) := by
  unfold saveConnection at h
  simp only at h
  split at h
  case isTrue => cases h
  case isFalse =>
    split at h
    case h_1 =>
      split at h
      case h_1 connections hinsert =>
        cases h
        exact ⟨rfl, rfl, Or.inl ⟨hinsert, rfl⟩⟩
      case h_2 => cases h
    case h_2 current hfound =>
      split at h
      case isTrue => cases h
      case isFalse howner =>
        cases h
        have hmem := (Table.find?_eq_some hfound).1
        exact ⟨rfl, rfl, Or.inr
          ⟨current, hmem, not_not.mp howner, rfl, rfl⟩⟩

/-- SaveProviderAccount either does nothing, or saves its connection. -/
theorem saveProviderAccount_cases (userID : UserID)
    (connection : SaveConnection) (source : SaveSource) (db : Db) :
    (saveProviderAccount userID connection source db).2 = db
      ∨ ∃ connectionID connected,
        saveConnection userID connection db = .ok (connectionID, connected)
          ∧ (saveProviderAccount userID connection source db).2.connections
            = connected.connections
          ∧ (saveProviderAccount userID connection source
            db).2.connectionIDs = connected.connectionIDs := by
  unfold saveProviderAccount
  split
  case isTrue => exact Or.inl rfl
  case isFalse =>
    split
    case h_1 => exact Or.inl rfl
    case h_2 connectionID connected hsave =>
      split
      case h_1 => exact Or.inl rfl
      case h_2 =>
        split
        case h_1 => exact Or.inl rfl
        case h_2 hsource =>
          obtain ⟨hconnections, hids⟩ := connections_saveSource hsource
          exact Or.inr ⟨connectionID, connected, hsave, hconnections, hids⟩

-- ================================== one step

/-- What a step does to the row of a connection. -/
inductive Evolves (s : Service) : Action → Connection → Connection → Prop
  | keep (a r) : Evolves s a r r
  | reconnect (userID connection source r) :
      Evolves s (.connect userID connection source) r
        (connection.reconnect r)
  | renew {refreshID source renewal} {r : Connection}
      (hstage : s.refreshes[refreshID]? = some ⟨source, .renewing renewal⟩)
      (hat : r.At source.source.connectionID
        source.credentials.tokenVersion) :
      Evolves s (.write refreshID) r (r.renew renewal.accessToken
        renewal.refreshToken renewal.expiresAt)
  | mark {refreshID source} {r : Connection}
      (hstage : s.refreshes[refreshID]? = some ⟨source, .rejecting⟩)
      (hat : r.At source.source.connectionID
        source.credentials.tokenVersion) :
      Evolves s (.mark refreshID) r { r with status := .refreshRequired }

/-- A connection that a step has created. -/
structure Created (db db' : Db) (r : Connection) : Prop where
  id : r.connectionID = db.connectionIDs
  drawn : db'.connectionIDs = db.connectionIDs + 1
  status : r.status = .connected

/-- Where the row of a connection comes from. -/
theorem origin_step (a : Action)
    (hr : r' ∈ (s.step configs a).db.connections) :
    (∃ r ∈ s.db.connections, Evolves s a r r')
      ∨ Created s.db (s.step configs a).db r' := by
  have hkeep : r' ∈ s.db.connections →
      ∃ r ∈ s.db.connections, Evolves s a r r' :=
    fun h => ⟨r', h, .keep a r'⟩
  cases a with
  | connect userID connection source =>
      rcases saveProviderAccount_cases userID connection source s.db with
        hsame | ⟨connectionID, connected, hsave, hconnections, hids⟩
      · have hr' : r' ∈ (saveProviderAccount userID connection source
            s.db).2.connections := hr
        rw [hsame] at hr'
        exact Or.inl (hkeep hr')
      · have hr' : r' ∈ (saveProviderAccount userID connection source
            s.db).2.connections := hr
        rw [hconnections] at hr'
        obtain ⟨hdrawn, -, hcases⟩ := saveConnection_cases hsave
        rcases hcases with ⟨hinsert, -⟩ | ⟨current, -, -, -, hupdate⟩
        · rcases (Table.mem_insert? hinsert).mp hr' with hold | rfl
          · exact Or.inl (hkeep hold)
          · exact Or.inr ⟨rfl, hids.trans hdrawn, rfl⟩
        · rw [hupdate, Table.mem_update] at hr'
          obtain ⟨r, hmem, he⟩ := hr'
          left
          split at he
          case isTrue =>
            subst he
            exact ⟨r, hmem, .reconnect userID connection source r⟩
          case isFalse => exact hkeep (he ▸ hmem)
  | disconnect userID connectionID =>
      left
      apply hkeep
      have hr' : r' ∈ (disconnect userID connectionID s.db).connections := hr
      unfold disconnect at hr'
      split at hr'
      case isTrue => exact (Table.mem_delete.mp hr').1
      case isFalse => exact hr'
  | setSourceEnabled => exact Or.inl (hkeep hr)
  | load source =>
      left
      apply hkeep
      unfold Service.step at hr
      simp only at hr
      split at hr <;> exact hr
  | refresh source =>
      left
      apply hkeep
      unfold Service.step at hr
      simp only at hr
      split at hr <;> exact hr
  | reject source =>
      left
      apply hkeep
      unfold Service.step at hr
      simp only at hr
      split at hr <;> exact hr
  | exchange refreshID now state answer =>
      left
      apply hkeep
      unfold Service.step at hr
      simp only at hr
      split at hr
      case h_1 =>
        split at hr
        case h_1 => exact hr
        case h_2 => exact hr
        case h_3 => split at hr <;> exact hr
      case h_2 => exact hr
  | write refreshID =>
      left
      unfold Service.step at hr
      simp only at hr
      split at hr
      case h_2 => exact hkeep hr
      case h_1 source renewal hstage =>
        have hr' : r' ∈ s.db.connections.update
            (Connection.At source.source.connectionID
              source.credentials.tokenVersion)
            (Connection.renew renewal.accessToken renewal.refreshToken
              renewal.expiresAt) (Table.keeps rfl) := by
          unfold Service.write updateConnectionCredentials at hr
          simp only at hr
          split at hr <;> exact hr
        rw [Table.mem_update] at hr'
        obtain ⟨r, hmem, he⟩ := hr'
        split at he
        case isTrue hat =>
          subst he
          exact ⟨r, hmem, .renew hstage hat⟩
        case isFalse => exact hkeep (he ▸ hmem)
  | mark refreshID =>
      left
      unfold Service.step at hr
      simp only at hr
      split at hr
      case h_2 => exact hkeep hr
      case h_1 source hstage =>
        have hr' : r' ∈ s.db.connections.update
            (Connection.At source.source.connectionID
              source.credentials.tokenVersion)
            (fun r => { r with status := .refreshRequired })
            (Table.keeps rfl) := hr
        rw [Table.mem_update] at hr'
        obtain ⟨r, hmem, he⟩ := hr'
        split at he
        case isTrue hat =>
          subst he
          exact ⟨r, hmem, .mark hstage hat⟩
        case isFalse => exact hkeep (he ▸ hmem)

namespace Evolves

variable {a : Action}

theorem id (h : Evolves s a r r') : r'.connectionID = r.connectionID := by
  cases h <;> rfl

/-- A row keeps its generation, or advances it. -/
theorem stamped (h : Evolves s a r r') :
    Advances r.stamped r'.stamped := by
  cases h with
  | keep => exact Or.inl rfl
  | reconnect => exact Or.inr ⟨_, rfl⟩
  | renew => exact Or.inr ⟨_, rfl⟩
  | mark => exact Or.inl rfl

end Evolves

-- =============================== identifiers

/-- Every identifier was drawn. -/
def Db.Drawn (db : Db) : Prop :=
  ∀ r ∈ db.connections, r.connectionID < db.connectionIDs

/-- Drawn identifiers are never given back. -/
theorem connectionIDs_step (s : Service) (a : Action) :
    s.db.connectionIDs ≤ (s.step configs a).db.connectionIDs := by
  cases a with
  | connect userID connection source =>
      show s.db.connectionIDs ≤ (saveProviderAccount userID connection
        source s.db).2.connectionIDs
      rcases saveProviderAccount_cases userID connection source s.db with
        hsame | ⟨connectionID, connected, hsave, -, hids⟩
      · rw [hsame]
      · have hdrawn := (saveConnection_cases hsave).1
        omega
  | disconnect userID connectionID =>
      show s.db.connectionIDs
        ≤ (disconnect userID connectionID s.db).connectionIDs
      unfold disconnect
      split <;> exact Nat.le_refl _
  | setSourceEnabled => exact Nat.le_refl _
  | load source =>
      unfold Service.step
      simp only
      split <;> exact Nat.le_refl _
  | refresh source =>
      unfold Service.step
      simp only
      split <;> exact Nat.le_refl _
  | reject source =>
      unfold Service.step
      simp only
      split <;> exact Nat.le_refl _
  | exchange refreshID now state answer =>
      unfold Service.step
      simp only
      split
      case h_1 =>
        split
        case h_1 => exact Nat.le_refl _
        case h_2 => exact Nat.le_refl _
        case h_3 => split <;> exact Nat.le_refl _
      case h_2 => exact Nat.le_refl _
  | write refreshID =>
      unfold Service.step
      simp only
      split
      case h_1 =>
        unfold Service.write updateConnectionCredentials
        simp only
        split <;> exact Nat.le_refl _
      case h_2 => exact Nat.le_refl _
  | mark refreshID =>
      unfold Service.step
      simp only
      split <;> exact Nat.le_refl _

theorem Db.Drawn.step (h : s.db.Drawn) (a : Action) :
    (s.step configs a).db.Drawn := by
  intro r' hr'
  rcases origin_step a hr' with ⟨r, hr, hevolves⟩ | hcreated
  · rw [hevolves.id]
    exact Nat.lt_of_lt_of_le (h r hr) (connectionIDs_step s a)
  · rw [hcreated.id, hcreated.drawn]
    exact Nat.lt_succ_self _

-- ================================= registers

/-- A connection as a register. -/
def Service.register (connectionID : ConnectionID) (s : Service) :
    Option (Stamped ConnectionID Secrets) :=
  Generation.register Connection.stamped s.db.connections connectionID

theorem mem_register {g : Stamped ConnectionID Secrets} :
    g ∈ s.register connectionID ↔ ∃ r ∈ s.db.connections,
      r.connectionID = connectionID ∧ r.stamped = g := by
  unfold Service.register Generation.register
  rw [Option.mem_def, Option.map_eq_some_iff]
  constructor
  · rintro ⟨r, hr, rfl⟩
    obtain ⟨hmem, hid⟩ := Table.get?_eq_some.mp hr
    exact ⟨r, hmem, hid, rfl⟩
  · rintro ⟨r, hmem, hid, rfl⟩
    exact ⟨r, Table.get?_eq_some.mpr ⟨hmem, hid⟩, rfl⟩

/-- The epoch that a step draws for a connection. -/
def draws (configs : Provider → Option RefreshConfig)
    (connectionID : ConnectionID) (s : Service) (a : Action) :
    List ConnectionID :=
  drawn (s.register connectionID)
    ((s.step configs a).register connectionID)

/-- Every step is a step of every connection. -/
theorem renews_step (hdrawn : s.db.Drawn) (connectionID : ConnectionID)
    (a : Action) :
    Step (draws configs connectionID s a) (s.register connectionID)
      ((s.step configs a).register connectionID) := by
  unfold draws
  cases hafter : (s.step configs a).register connectionID with
  | none =>
      cases hbefore : s.register connectionID with
      | none => exact .refl none
      | some g => exact .clear _
  | some g' =>
      obtain ⟨r', hr', hid, rfl⟩ := mem_register.mp hafter
      rcases origin_step a hr' with ⟨r, hr, hevolves⟩ | hcreated
      · have hbefore : s.register connectionID = some r.stamped :=
          mem_register.mpr ⟨r, hr, hevolves.id.symm.trans hid, rfl⟩
        rw [hbefore]
        rcases hevolves.stamped with heq | ⟨content, heq⟩
        · rw [heq]
          exact .refl _
        · rw [heq]
          exact .advance r.stamped content
      · have hbefore : s.register connectionID = none := by
          rw [Option.eq_none_iff_forall_not_mem]
          intro g hg
          obtain ⟨r, hr, hrid, -⟩ := mem_register.mp hg
          have hlt := hdrawn r hr
          rw [hrid, ← hid, hcreated.id] at hlt
          exact Nat.lt_irrefl _ hlt
        rw [hbefore]
        exact .fill _

/-- What is drawn was not drawn before, and is drawn now. -/
theorem mem_draws {drawnID : ConnectionID}
    {a : Action} (h : drawnID ∈ draws configs connectionID s a) :
    s.db.connectionIDs ≤ drawnID
      ∧ drawnID < (s.step configs a).db.connectionIDs := by
  unfold draws at h
  cases hbefore : s.register connectionID with
  | some g =>
      rw [hbefore] at h
      cases h
  | none =>
      cases hafter : (s.step configs a).register connectionID with
      | none =>
          rw [hbefore, hafter] at h
          cases h
      | some g' =>
          rw [hbefore, hafter] at h
          rw [List.mem_singleton.mp h]
          obtain ⟨r', hr', hid, rfl⟩ := mem_register.mp hafter
          rcases origin_step a hr' with ⟨r, hr, hevolves⟩ | hcreated
          · have hsome : r.stamped ∈ s.register connectionID :=
              mem_register.mpr ⟨r, hr, hevolves.id.symm.trans hid, rfl⟩
            rw [hbefore] at hsome
            cases hsome
          · show s.db.connectionIDs ≤ r'.connectionID
              ∧ r'.connectionID < (s.step configs a).db.connectionIDs
            rw [hcreated.id, hcreated.drawn]
            exact ⟨Nat.le_refl _, Nat.lt_succ_self _⟩

-- ====================================== runs

/-- The state after a list of actions. -/
abbrev runTo (configs : Provider → Option RefreshConfig)
    (acts : List Action) : Service :=
  Run.run (Service.step configs) Service.init acts

theorem runTo_snoc (acts : List Action) (a : Action) :
    runTo configs (acts ++ [a]) = (runTo configs acts).step configs a :=
  Run.run_snoc Service.init acts a

theorem drawn_run (configs : Provider → Option RefreshConfig)
    (acts : List Action) : (runTo configs acts).db.Drawn := by
  refine Run.run_preserves (P := fun s : Service => s.db.Drawn) ?_
    (fun s a h => h.step a) acts
  exact fun r hr => absurd hr Table.not_mem_empty

/-- No identifier is drawn twice. -/
theorem draws_distinct (configs : Provider → Option RefreshConfig)
    (connectionID : ConnectionID) (acts : List Action) :
    (Run.log (Service.step configs) (draws configs connectionID)
      Service.init acts).Nodup := by
  refine Run.log_pairwise (fun s : Service => s.db.Drawn)
    (fun drawnID s => drawnID < s.db.connectionIDs)
    ?_ ?_ ?_ ?_ ?_ (drawn_run configs []) acts
  · exact fun s a h => h.step a
  · intro s a _
    unfold draws drawn
    split
    case h_1 => exact List.pairwise_singleton _ _
    case h_2 => exact List.Pairwise.nil
  · exact fun s a _ drawnID hmem => (mem_draws hmem).2
  · exact fun s a drawnID _ h =>
      Nat.lt_of_lt_of_le h (connectionIDs_step s a)
  · intro s a drawnID other _ hlt hmem
    exact Nat.ne_of_lt (Nat.lt_of_lt_of_le hlt (mem_draws hmem).1)

/-- A connection against its history, on every run. -/
theorem coherent (configs : Provider → Option RefreshConfig)
    (connectionID : ConnectionID) (acts : List Action) :
    Coherent (Run.log (Service.step configs) (draws configs connectionID)
        Service.init acts)
      (heldAlong (Service.step configs) (Service.register connectionID)
        Service.init acts)
      ((runTo configs acts).register connectionID) := by
  induction acts using List.reverseRecOn with
  | nil =>
      have hempty : ∀ g, g ∉ heldAlong (Service.step configs)
          (Service.register connectionID) Service.init [] := by
        rintro g ⟨before, hbefore, hg⟩
        rw [List.prefix_nil.mp hbefore] at hg
        cases hg
      refine ⟨fun g hg => absurd hg (hempty g),
        fun g hg => absurd hg (hempty g), fun g hg => ?_, fun g hg => ?_⟩
      all_goals cases hg
  | append_singleton acts a ih =>
      have hdistinct := draws_distinct configs connectionID
        (acts ++ [a])
      have hlog : Run.log (Service.step configs)
          (draws configs connectionID) Service.init (acts ++ [a])
          = Run.log (Service.step configs) (draws configs connectionID)
              Service.init acts
            ++ draws configs connectionID (runTo configs acts) a := by
        rw [Run.log_append, Run.log, Run.log, List.append_nil]
      rw [hlog] at hdistinct ⊢
      rw [heldAlong_snoc, runTo_snoc, Run.run_snoc]
      exact ih.step (renews_step (drawn_run configs acts) connectionID a)
        hdistinct

/-- A later row of a connection has at least the version of an earlier
one, and with the same version the same secrets. -/
theorem versions_grow {before acts : List Action}
    (hbefore : before <+: acts)
    (hr : r ∈ (runTo configs before).db.connections)
    (hr' : r' ∈ (runTo configs acts).db.connections)
    (hid : r'.connectionID = r.connectionID) :
    r.tokenVersion ≤ r'.tokenVersion
      ∧ (r'.tokenVersion = r.tokenVersion → r'.toSecrets = r.toSecrets) := by
  have hcoherent := coherent configs r.connectionID acts
  have hheld : r.stamped ∈ heldAlong (Service.step configs)
      (Service.register r.connectionID) Service.init acts :=
    ⟨before, hbefore, mem_register.mpr ⟨r, hr, rfl, rfl⟩⟩
  have hcurrent : r'.stamped ∈ (runTo configs acts).register
      r.connectionID := mem_register.mpr ⟨r', hr', hid, rfl⟩
  refine ⟨hcoherent.last _ hcurrent _ hheld hid.symm, fun hversion => ?_⟩
  have heq := hcoherent.unique _ (hcoherent.current _ hcurrent) _ hheld hid
    hversion
  exact congrArg Stamped.content heq

-- =================================== holders

/-- What is held of a connection is what its row holds. -/
structure Holds (source : ConnectedSource) (r : Connection) : Prop where
  id : r.connectionID = source.source.connectionID
  version : r.tokenVersion = source.credentials.tokenVersion
  accessToken : r.accessToken.getD "" = source.credentials.accessToken
  refreshToken : r.refreshToken.getD "" = source.credentials.refreshToken
  deviceID : r.oauthDeviceID.getD "" = source.credentials.deviceID
  scopes : r.scopes = source.credentials.scopes

theorem Holds.of_secrets (h : Holds source r)
    (hid : r'.connectionID = r.connectionID)
    (hversion : r'.tokenVersion = r.tokenVersion)
    (hsecrets : r'.toSecrets = r.toSecrets) : Holds source r' where
  id := hid.trans h.id
  version := hversion.trans h.version
  accessToken := by rw [hsecrets]; exact h.accessToken
  refreshToken := by rw [hsecrets]; exact h.refreshToken
  deviceID := by rw [hsecrets]; exact h.deviceID
  scopes := by rw [hsecrets]; exact h.scopes

/-- It was stored at some moment of the run. -/
def Copied (configs : Provider → Option RefreshConfig)
    (acts : List Action) (source : ConnectedSource) : Prop :=
  ∃ before, before <+: acts
    ∧ ∃ r ∈ (runTo configs before).db.connections, Holds source r

theorem Copied.snoc {acts : List Action}
    (h : Copied configs acts source) (a : Action) :
    Copied configs (acts ++ [a]) source := by
  obtain ⟨before, hbefore, hr⟩ := h
  exact ⟨before, hbefore.trans (List.prefix_append acts [a]), hr⟩

/-- A holder that has the stored version has the stored secrets. -/
theorem Copied.current {acts : List Action} (h : Copied configs acts source)
    (hr : r ∈ (runTo configs acts).db.connections)
    (hat : r.At source.source.connectionID
      source.credentials.tokenVersion) : Holds source r := by
  obtain ⟨before, hbefore, r₀, hr₀, hholds⟩ := h
  have hid : r.connectionID = r₀.connectionID := hat.1.trans hholds.id.symm
  have hversion : r.tokenVersion = r₀.tokenVersion :=
    hat.2.trans hholds.version.symm
  exact hholds.of_secrets hid hversion
    ((versions_grow hbefore hr₀ hr hid).2 hversion)

/-- What is selected is a row with its connection. -/
theorem mem_selectSources {p : SourceRow → Connection → Prop}
    [∀ s r, Decidable (p s r)] {source : OwnedConnectedSource} :
    source ∈ selectSources p db ↔ ∃ row ∈ db.sources,
      ∃ r ∈ db.connections, r.connectionID = row.connectionID
        ∧ r.userID = row.userID ∧ row.enabled = true ∧ p row r
        ∧ row.connected r = source := by
  unfold selectSources
  simp only [List.mem_flatMap, List.mem_map, List.mem_filter,
    decide_eq_true_eq]
  constructor
  · rintro ⟨row, hrow, r, ⟨hr, hid, hu, henabled, hp⟩, he⟩
    exact ⟨row, hrow, r, hr, hid, hu, henabled, hp, he⟩
  · rintro ⟨row, hrow, r, hr, hid, hu, henabled, hp, he⟩
    exact ⟨row, hrow, r, ⟨hr, hid, hu, henabled, hp⟩, he⟩

/-- A source that is loaded holds its connection. -/
theorem holds_of_load {source : OwnedConnectedSource}
    (h : source ∈ loadConnectedSources source.userID none db) :
    ∃ r ∈ db.connections, Holds source.connectedSource r := by
  obtain ⟨row, -, r, hr, hid, -, -, -, he⟩ := mem_selectSources.mp h
  refine ⟨r, hr, ?_⟩
  rw [← he]
  exact ⟨hid, rfl, rfl, rfl, rfl, rfl⟩

/-- A renewal always has a refresh token. -/
theorem refreshed_refreshToken {now : Time} {state : String}
    {answer : Answer} {renewal : Renewal}
    (h : refreshed configs now state source answer = .ok (some renewal)) :
    renewal.refreshToken ≠ "" := by
  unfold refreshed at h
  split at h
  case isTrue => cases h
  case isFalse =>
    split at h
    case isTrue => cases h
    case isFalse hrefresh =>
      split at h
      case h_1 => cases h
      case h_2 config _ =>
        split at h
        case isTrue => cases h
        case isFalse =>
          split at h
          case isTrue => cases h
          case isFalse =>
            split at h
            case h_1 => split at h <;> cases h
            case h_2 => cases h
            case h_3 token blog =>
              split at h
              case isTrue => cases h
              case isFalse =>
                split at h
                case isTrue => cases h
                case isFalse hvalid =>
                  have hne : token.refreshToken.getD
                      source.credentials.refreshToken ≠ "" := by
                    cases htoken : token.refreshToken with
                    | none => exact hrefresh
                    | some value =>
                        intro he
                        have hempty : value = "" := he
                        unfold Token.invalid at hvalid
                        simp [htoken, hempty] at hvalid
                  simp only at h
                  split at h
                  case isTrue =>
                    split at h
                    case h_1 => split at h <;> cases h
                    case h_2 =>
                      split at h
                      case isTrue => cases h
                      case isFalse =>
                        cases h
                        exact hne
                  case isFalse =>
                    cases h
                    exact hne

end StreamBrew.Chat
