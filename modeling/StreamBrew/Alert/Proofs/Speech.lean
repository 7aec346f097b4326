/-
Fencing of speech preparation: what the generation of a claim is worth
to the worker that holds it.

# Counting claims

The generation of a row counts its claims. `claimsOf` collects what
the workers were handed for one playback along a run, and by induction
on the run it is the list of the first `k` attempts, where `k` is the
generation the row carries (`claimsOf_eq`).

# Reports

A report takes effect exactly while its playback is still preparing
under its generation. The lease is not part of that test: it only
tells ClaimPreparation when a claim may be given to the next worker,
so a worker that is late but not yet replaced is still heard
(`completed_after_lease`).
-/
import StreamBrew.Alert.Proofs.Calls

namespace StreamBrew.Alert

open Relational

variable {g : Grant} {db db' : Db} {r r' : Playback}

-- ========================== what a row keeps

/-- Without the grant, a row keeps its generation. -/
theorem Next.preparationGeneration {has : UserID → AssetID → Prop}
    (h : Next has g r r') (hg : ¬ g.prepare r) :
    r'.preparationGeneration = r.preparationGeneration := by
  rcases h with h | ⟨-, p, n, rfl⟩
  · cases h with
    | claimPreparation hp => exact absurd hp hg
    | _ => rfl
  · rfl

/-- A row that prepares after a statement prepared before it. -/
theorem Next.preparing {has : UserID → AssetID → Prop}
    (h : Next has g r r') (hr' : r'.status = .preparing) :
    r.status = .preparing := by
  rcases h with h | ⟨-, p, n, rfl⟩
  · cases h with
    | claimPreparation _ hs => exact hs
    | retry hs => exact hs
    | attachSpeech => cases hr'
    | _ => first | exact hr' | cases hr'
  · cases hr'

/-- Without the grants, a row gains no speech. -/
theorem Next.speech {has : UserID → AssetID → Prop}
    (h : Next has g r r') (hg : ¬ g.speak r) (hr' : r'.ttsAssetID ≠ none) :
    r.ttsAssetID ≠ none := by
  rcases h with h | ⟨-, p, n, rfl⟩
  · cases h with
    | attachSpeech hs => exact absurd hs hg
    | releaseMedia _ _ _ _ htts =>
        rcases htts with htts | htts
        · exact fun he => hr' (htts.trans he)
        · exact absurd htts hr'
    | _ => exact hr'
  · exact hr'

/-- The row's generation is that of the row before, or the row is new
and was never claimed. -/
def SameGeneration (db : Db) (r' : Playback) : Prop :=
  (∃ r ∈ db.playbacks, r.queueSequence = r'.queueSequence
      ∧ r'.preparationGeneration = r.preparationGeneration)
    ∨ (db.sequence < r'.queueSequence ∧ r'.preparationGeneration = 0)

/-- A call without the grant counts no claim. -/
theorem Steps.sameGeneration (hi : Inv db) (hg : ∀ r, ¬ g.prepare r)
    (h : Steps g db db') : ∀ r' ∈ db'.playbacks, SameGeneration db r' := by
  induction h with
  | refl => exact fun r' hr' => Or.inl ⟨r', hr', rfl, rfl⟩
  | tail hsteps heffect ih =>
      intro r' hr'
      rcases heffect.origin (hi.steps hsteps) hr' with ⟨r, hr, hn⟩ | hnew
      · have hgen := hn.preparationGeneration (hg r)
        rcases ih r hr with ⟨s, hs, hq, hsg⟩ | ⟨habove, hzero⟩
        · exact Or.inl ⟨s, hs, hq.trans hn.queueSequence.symm,
            hgen.trans hsg⟩
        · exact Or.inr ⟨hn.queueSequence ▸ habove, hgen.trans hzero⟩
      · obtain ⟨draw, userID, snapshot, status, rfl⟩ := hnew.blank
        exact Or.inr ⟨lt_of_le_of_lt (Steps.sequence_le hsteps) hnew.above, rfl⟩

-- ==================================== claims

/-- What a claim hands out: the playback, its generation and attempt. -/
def claimedBy (db : Db) : Action → List (Nat × Nat × Nat)
  | .claimPreparation now locked =>
      match (claimPreparation now locked db).1 with
      | .ok (some p) => ((db.playback? p.playbackID).map fun r =>
          (r.queueSequence, p.generation, p.attempts)).toList
      | _ => []
  | _ => []

/-- The generations and attempts handed out for one playback. -/
def claimsOf (n : Nat) (acts : List Action) : List (Nat × Nat) :=
  ((Run.log apply claimedBy Db.init acts).filter fun c => c.1 = n).map
    Prod.snd

/-- The sweep before a claim counts no claim. -/
private theorem steps_swept (now : Time) :
    Steps g db (releaseExhausted now (expireAll now db)) :=
  (Relation.ReflTransGen.single (effect_expireAll now)).tail
    (effect_releaseExhausted now)

/-- A preparing row has a message to speak. -/
private theorem candidate_message (hi : Inv db) (hr : r ∈ db.playbacks)
    (hs : r.status = .preparing) : ∃ text, r.message = some text :=
  Option.ne_none_iff_exists'.mp ((hi.shape r hr).speech hs).1

/-- A claim hands out nothing, or counts one claim of one row. -/
theorem claimPreparation_cases (hi : Inv db) (now : Time)
    (locked : List Nat) :
    (claimPreparation now locked db
        = (.ok none, releaseExhausted now (expireAll now db)))
      ∨ ∃ r ∈ db.playbacks,
        r ∈ (releaseExhausted now (expireAll now db)).playbacks
        ∧ r.Preparable now
        ∧ (∃ p : Preparation, (claimPreparation now locked db).1
            = .ok (some p) ∧ p.playbackID = r.playbackID
          ∧ p.generation = r.preparationGeneration + 1
          ∧ p.attempts = r.preparationAttempts + 1)
        ∧ (claimPreparation now locked db).2
          = { releaseExhausted now (expireAll now db) with
              playbacks := (releaseExhausted now
                (expireAll now db)).playbacks.update
                (fun s => s.playbackID = r.playbackID)
                (Playback.claimPreparation now) (Table.keeps rfl) } := by
  have hi₂ : Inv (releaseExhausted now (expireAll now db)) :=
    hi.steps (steps_swept (g := {}) now)
  unfold claimPreparation
  simp only
  split
  case h_1 => exact Or.inl rfl
  case h_2 r hfirst =>
    right
    obtain ⟨hmem, ⟨hprep, -⟩, -⟩ := Table.first_eq_some hfirst
    obtain ⟨text, htext⟩ := candidate_message hi₂ hmem hprep.1
    refine ⟨r, mem_swept_preparing hmem hprep.1, hmem, hprep, ?_, ?_⟩
    · rw [htext]
      exact ⟨_, rfl, rfl, rfl, rfl⟩
    · rw [htext]

/-- A call hands out no claim and counts none, or one for one row. -/
theorem claimedBy_cases (hi : Inv db) (a : Action) :
    (claimedBy db a = []
        ∧ ∀ r' ∈ (apply db a).playbacks, SameGeneration db r')
      ∨ ∃ r ∈ db.playbacks, r.preparationAttempts < preparationTries
        ∧ claimedBy db a = [(r.queueSequence, r.preparationGeneration + 1,
          r.preparationAttempts + 1)]
        ∧ ∀ r' ∈ (apply db a).playbacks,
          if r'.queueSequence = r.queueSequence
          then r'.preparationGeneration = r.preparationGeneration + 1
          else SameGeneration db r' := by
  by_cases hcall : ∃ now locked, a = .claimPreparation now locked
  · obtain ⟨now, locked, rfl⟩ := hcall
    have hsweep : Steps {} db (releaseExhausted now (expireAll now db)) :=
      steps_swept now
    have hi₂ := hi.steps hsweep
    have hsame := hsweep.sameGeneration hi (fun _ => id)
    rcases claimPreparation_cases hi now locked with heq | hclaim
    · left
      refine ⟨?_, fun r' hr' => hsame r' ?_⟩
      · show (match (claimPreparation now locked db).1 with
          | .ok (some p) => _ | _ => []) = []
        rw [heq]
      · have hdb : apply db (.claimPreparation now locked)
            = releaseExhausted now (expireAll now db) := by
          show (claimPreparation now locked db).2 = _
          rw [heq]
        rwa [hdb] at hr'
    · obtain ⟨r, hr, hmem, hprep, ⟨p, hp, hid, hgen, hatt⟩, hdb⟩ := hclaim
      refine Or.inr ⟨r, hr, hprep.2.2.2.1, ?_, fun r' hr' => ?_⟩
      · show (match (claimPreparation now locked db).1 with
          | .ok (some p) => _ | _ => []) = _
        have hfound : db.playback? p.playbackID = some r := by
          unfold Db.playback?
          cases hf : db.playbacks.find? fun s =>
              s.playbackID = p.playbackID with
          | none =>
              exact absurd hid.symm (Table.find?_eq_none.mp hf r hr)
          | some s =>
              obtain ⟨hs, hsid⟩ := Table.find?_eq_some hf
              rw [hi.ids s hs r hr (hsid.trans hid)]
        rw [hp]
        simp only [hfound, hgen, hatt]
        rfl
      · have hmem' : r' ∈ (claimPreparation now locked db).2.playbacks :=
          hr'
        rw [hdb, Table.mem_update] at hmem'
        obtain ⟨s, hs, he⟩ := hmem'
        split at he
        case isTrue hsid =>
          have heq := hi₂.ids s hs r hmem hsid
          subst heq he
          have hq : (s.claimPreparation now).queueSequence
            = s.queueSequence := rfl
          rw [if_pos hq]
          rfl
        case isFalse hsid =>
          subst he
          rw [if_neg fun hq => hsid (by rw [Table.eq_of_key hs hmem hq])]
          exact hsame s hs
  · left
    refine ⟨?_, (apply_steps hi a).sameGeneration hi fun r hg => ?_⟩
    · unfold claimedBy
      split
      case h_1 now locked => exact absurd ⟨now, locked, rfl⟩ hcall
      case h_2 => rfl
    · obtain ⟨now, locked, ha, -⟩ := hg
      exact hcall ⟨now, locked, ha⟩

/-- The first `k` claims of a playback: generation and attempt agree. -/
def firstClaims (k : Nat) : List (Nat × Nat) :=
  (List.range' 1 k).map fun i => (i, i)

theorem firstClaims_succ (k : Nat) :
    firstClaims (k + 1) = firstClaims k ++ [(k + 1, k + 1)] := by
  unfold firstClaims
  rw [List.range'_concat, List.map_append]
  simp [Nat.add_comm]

theorem claimsOf_snoc (n : Nat) (acts : List Action) (a : Action) :
    claimsOf n (acts ++ [a]) = claimsOf n acts
      ++ ((claimedBy (Run.run apply Db.init acts) a).filter
        fun c => c.1 = n).map Prod.snd := by
  unfold claimsOf
  rw [Run.log_append, List.filter_append, List.map_append]
  simp [Run.log]

/-- A playback was claimed for the attempts `1, .., k`, at most three,
and its row carries `k`. -/
theorem claimsOf_eq (n : Nat) (acts : List Action) :
    ∃ k ≤ preparationTries, claimsOf n acts = firstClaims k
      ∧ (∀ r ∈ (Run.run apply Db.init acts).playbacks,
        r.queueSequence = n → r.preparationGeneration = k)
      ∧ ((Run.run apply Db.init acts).sequence < n → k = 0) := by
  induction acts using List.reverseRecOn with
  | nil =>
      refine ⟨0, Nat.zero_le _, rfl, fun r hr => ?_, fun _ => rfl⟩
      exact absurd hr Table.not_mem_empty
  | append_singleton acts a ih =>
      obtain ⟨k, hk, hclaims, hrow, habove⟩ := ih
      set db := Run.run apply Db.init acts with hdb
      have hi : Inv db := Reachable.inv ⟨acts, rfl⟩
      have hrun : Run.run apply Db.init (acts ++ [a]) = apply db a := by
        rw [Run.run_append]
        rfl
      have hseq := (apply_steps hi a).sequence_le
      have hsame : ∀ r', SameGeneration db r' → r'.queueSequence = n →
          r'.preparationGeneration = k := by
        rintro r' (⟨r, hr, hq, hgen⟩ | ⟨hlt, hgen⟩) hn
        · rw [hgen]
          exact hrow r hr (hq.trans hn)
        · rw [hgen, habove (hn ▸ hlt)]
      rw [claimsOf_snoc, hrun, ← hdb]
      rcases claimedBy_cases hi a with ⟨hnone, hgens⟩ | hclaim
      · refine ⟨k, hk, ?_, fun r' hr' => hsame r' (hgens r' hr'),
          fun hlt => habove (lt_of_le_of_lt hseq hlt)⟩
        rw [hnone, hclaims]
        simp
      · obtain ⟨r, hr, htries, hone, hgens⟩ := hclaim
        have hshape := (hi.shape r hr).attempts
        by_cases hn : r.queueSequence = n
        · have hgen := hrow r hr hn
          refine ⟨k + 1, ?_, ?_, fun r' hr' hq => ?_, fun hlt => ?_⟩
          · omega
          · rw [hone, hclaims, firstClaims_succ]
            have hatt : r.preparationAttempts = k := by omega
            simp [hn, hgen, hatt]
          · have hg := hgens r' hr'
            rw [if_pos (hq.trans hn.symm)] at hg
            omega
          · have hle := hi.bound r hr
            omega
        · refine ⟨k, hk, ?_, fun r' hr' hq => ?_,
            fun hlt => habove (lt_of_le_of_lt hseq hlt)⟩
          · rw [hone, hclaims]
            simp [hn]
          · have hg := hgens r' hr'
            rw [if_neg fun h => hn (h.symm.trans hq)] at hg
            exact hsame r' hg hq

-- =================================== reports

/-- One row is prepared by one claim. -/
theorem count_preparedBy (hi : Inv db) (preparation : Preparation) :
    db.playbacks.count (Playback.PreparedBy preparation) = 1
      ↔ ∃ r ∈ db.playbacks, r.PreparedBy preparation :=
  Table.count_eq_one fun r hr s hs hpr hps =>
    hi.ids r hr s hs (hpr.1.trans hps.1.symm)

/-- Under a fresh id a file is always stored. -/
theorem insertAsset_isSome (userID : UserID) (kind : AssetKind)
    (media : Media) {assetID : AssetID} (now : Time)
    (hfresh : ∀ asset ∈ db.assets, asset.assetID ≠ assetID) :
    ∃ saved db', db.insertAsset userID kind media assetID now
      = some (saved, db') := by
  unfold Db.insertAsset
  split
  case h_1 asset _ => exact ⟨_, _, rfl⟩
  case h_2 =>
    set row : Asset :=
      { assetID, userID, kind
        mimeType := media.mimeType
        contentHash := media.contentHash
        durationMS := if media.durationMS > 0
          then some media.durationMS else none
        createdAt := jsDate now }
    obtain ⟨assets, hins⟩ : ∃ t', db.assets.insert? row = some t' :=
      Table.insert?_isSome hfresh
    rw [hins]
    exact ⟨_, _, rfl⟩

/-- The playback a report names is preparing under its generation. -/
def Current (preparation : Preparation) (db : Db) : Prop :=
  ∃ r ∈ db.playbacks, r.PreparedBy preparation

/-- A completion is accepted while its claim is current, and otherwise
refused as a conflict that leaves the tables as they were. -/
theorem completePreparation_eq (hi : Inv db) (preparation : Preparation)
    (media : Media) {assetID : AssetID} (now : Time)
    (hfresh : ∀ asset ∈ db.assets, asset.assetID ≠ assetID) :
    ((completePreparation preparation media assetID now db).1 = .ok ()
        ↔ Current preparation db)
      ∧ (¬ Current preparation db →
        completePreparation preparation media assetID now db
          = (.error .conflict, db)) := by
  obtain ⟨speech, inserted, hins⟩ :=
    insertAsset_isSome preparation.userID .tts media now hfresh
  obtain ⟨-, -, hrows, -⟩ := effect_insertAsset (g := {}) hi hins
  have hcount := count_preparedBy hi preparation
  unfold completePreparation
  rw [hins]
  simp only [hrows]
  by_cases hcurrent : Current preparation db
  · rw [if_pos (hcount.mpr hcurrent)]
    exact ⟨⟨fun _ => hcurrent, fun _ => rfl⟩, fun h => absurd hcurrent h⟩
  · rw [if_neg (hcount.not.mpr hcurrent)]
    exact ⟨⟨fun h => (by cases h), fun h => absurd h hcurrent⟩,
      fun _ => rfl⟩

/-- So is a failure. -/
theorem failPreparation_eq (hi : Inv db) (preparation : Preparation)
    (now : Time) :
    ((failPreparation preparation now db).1 = .ok ()
        ↔ Current preparation db)
      ∧ (¬ Current preparation db →
        failPreparation preparation now db = (.error .conflict, db)) := by
  have hcount := count_preparedBy hi preparation
  unfold failPreparation
  simp only
  by_cases hcurrent : Current preparation db
  · rw [if_pos (hcount.mpr hcurrent)]
    exact ⟨⟨fun _ => hcurrent, fun _ => rfl⟩, fun h => absurd hcurrent h⟩
  · rw [if_neg (hcount.not.mpr hcurrent)]
    refine ⟨⟨fun h => (by cases h), fun h => absurd h hcurrent⟩,
      fun _ => ?_⟩
    rw [Table.update_eq_self fun r hr hp => hcurrent ⟨r, hr, hp⟩]

-- ==================================== speech

/-- The speech attached to the playback with this queue sequence. -/
def Db.speech (db : Db) (n : Nat) : Option AssetID :=
  (db.playbacks.get? n).bind Playback.ttsAssetID

/-- The playbacks a call attaches speech to. -/
def spokenBy (db : Db) (a : Action) : List Nat :=
  ((apply db a).playbacks.rows.filter fun r =>
    r.ttsAssetID ≠ none ∧ db.speech r.queueSequence = none).map
      Playback.queueSequence

/-- A call without the grant attaches no speech. -/
theorem Steps.speech (hi : Inv db) (hg : ∀ r, ¬ g.speak r)
    (h : Steps g db db') (hr' : r' ∈ db'.playbacks)
    (htts : r'.ttsAssetID ≠ none) : db.speech r'.queueSequence ≠ none := by
  induction h generalizing r' with
  | refl =>
      unfold Db.speech
      rw [Table.get?_key hr', Option.bind_some]
      exact htts
  | tail hsteps heffect ih =>
      rcases heffect.origin (hi.steps hsteps) hr' with ⟨r, hr, hn⟩ | hnew
      · rw [hn.queueSequence]
        exact ih hr (hn.speech (hg r) htts)
      · obtain ⟨draw, userID, snapshot, status, rfl⟩ := hnew.blank
        exact absurd rfl htts

/-- The rows after a completion: as before, or with speech attached to
the row it reports about. -/
theorem completePreparation_origin (hi : Inv db)
    {preparation : Preparation} {media : Media} {assetID : AssetID}
    {now : Time} (hr' : r' ∈ (completePreparation preparation media assetID
      now db).2.playbacks) :
    r' ∈ db.playbacks ∨ ∃ r ∈ db.playbacks, r.PreparedBy preparation
      ∧ ∃ speech, r' = r.attachSpeech speech := by
  unfold completePreparation at hr'
  split at hr'
  case h_1 => exact Or.inl hr'
  case h_2 speech inserted hins =>
    obtain ⟨-, -, hrows, -⟩ := effect_insertAsset (g := {}) hi hins
    split at hr'
    case isFalse => exact Or.inl hr'
    case isTrue =>
      rw [Table.mem_update] at hr'
      obtain ⟨r, hr, he⟩ := hr'
      rw [hrows] at hr
      split at he
      case isTrue hp => exact Or.inr ⟨r, hr, hp, speech, he.symm⟩
      case isFalse => exact Or.inl (he ▸ hr)

/-- Speech is attached to a preparing row. -/
theorem spokenBy_preparing (hi : Inv db) {a : Action} {n : Nat}
    (hn : n ∈ spokenBy db a) :
    (∃ r' ∈ (apply db a).playbacks, r'.queueSequence = n
        ∧ r'.ttsAssetID ≠ none)
      ∧ ∃ r ∈ db.playbacks, r.queueSequence = n ∧ r.status = .preparing := by
  unfold spokenBy at hn
  obtain ⟨r', hr', rfl⟩ := List.mem_map.mp hn
  obtain ⟨hmem, hp⟩ := List.mem_filter.mp hr'
  rw [decide_eq_true_eq] at hp
  obtain ⟨htts, hbefore⟩ := hp
  refine ⟨⟨r', hmem, rfl, htts⟩, ?_⟩
  by_cases hcall : ∃ preparation media assetID now,
      a = .completePreparation preparation media assetID now
  · obtain ⟨preparation, media, assetID, now, rfl⟩ := hcall
    rcases completePreparation_origin hi hmem with hr | ⟨r, hr, hp, s, rfl⟩
    · unfold Db.speech at hbefore
      rw [Table.get?_key hr, Option.bind_some] at hbefore
      exact absurd hbefore htts
    · exact ⟨r, hr, rfl, hp.2.2.2⟩
  · have hg : ∀ r, ¬ (a.grant db).speak r := by
      rintro r ⟨preparation, media, assetID, now, ha, -⟩
      exact hcall ⟨preparation, media, assetID, now, ha⟩
    exact absurd hbefore ((apply_steps hi a).speech hi hg hmem htts)

/-- A row that no longer prepares. -/
def Prepared (r : Playback) : Prop := r.status ≠ .preparing

/-- On every run, speech is attached to a playback once at most. -/
theorem spoken_once (acts : List Action) :
    (Run.log apply spokenBy Db.init acts).Nodup := by
  refine Run.log_pairwise Inv (Settled Prepared) ?_ ?_ ?_ ?_ ?_ Inv.init
    acts
  · exact fun db a hi => hi.apply a
  · exact fun db a _ =>
      (apply db a).playbacks.nodup.sublist (List.filter_sublist.map _)
  · intro db a hi n hn
    obtain ⟨⟨r', hr', rfl, htts⟩, -⟩ := spokenBy_preparing hi hn
    have hi' := hi.apply a
    refine ⟨hi'.bound r' hr', fun s hs hq hprep => ?_⟩
    have heq := Table.eq_of_key hs hr' hq
    subst heq
    exact htts ((hi'.shape s hs).speech hprep).2
  · exact fun db a n hi hn => hn.steps hi
      (fun _ _ _ hr hnext hprep => hr (hnext.preparing hprep))
      (apply_steps hi a)
  · intro db a m n hi hm hn he
    subst he
    obtain ⟨-, r, hr, hq, hprep⟩ := spokenBy_preparing hi hn
    exact hm.2 r hr hq hprep

-- ============================ spent attempts

/-- A row that prepares with no attempt left and no lease running. -/
def Playback.Exhausted (now : Time) (r : Playback) : Prop :=
  r.status = .preparing ∧ preparationTries ≤ r.preparationAttempts
    ∧ r.Unleased now

/-- A row under a new claim is leased. -/
theorem Playback.claimPreparation_leased (r : Playback) (now : Time) :
    ¬ (r.claimPreparation now).Unleased now := by
  intro h
  have hle : jsDate (now + preparationLease) ≤ now := h _ rfl
  have hnear := (jsDate_near (now + preparationLease)).1
  have hlease : preparationLease = 120000000 := rfl
  rw [hlease] at hle hnear
  linarith

/-- The sweep before a claim leaves no exhausted row. -/
theorem swept_not_exhausted {now : Time} :
    ∀ r ∈ (releaseExhausted now (expireAll now db)).playbacks,
      ¬ r.Exhausted now := by
  rintro r hr ⟨hs, htries, hlease⟩
  have hmem := mem_swept_preparing hr hs
  unfold releaseExhausted at hr
  rw [Table.mem_update] at hr
  obtain ⟨s, hs₁, he⟩ := hr
  split at he
  case isTrue =>
    subst he
    cases hs
  case isFalse hnot =>
    subst he
    have hold : s.expiresAt ≤ now :=
      not_lt.mp fun hlt => hnot ⟨hs, hlt, htries, hlease⟩
    unfold expireAll at hs₁
    rw [Table.mem_update] at hs₁
    obtain ⟨t, -, he⟩ := hs₁
    split at he
    case isTrue =>
      subst he
      cases hs
    case isFalse hfresh =>
      subst he
      exact hfresh ⟨Or.inl hs, hold⟩

/-- What becomes of an exhausted row in the sweep. -/
theorem exhausted_swept (hi : Inv db) {now : Time} (hr : r ∈ db.playbacks)
    (hex : r.Exhausted now) :
    ∃ r' ∈ (releaseExhausted now (expireAll now db)).playbacks,
      r'.queueSequence = r.queueSequence ∧ r'.ttsAssetID = none
        ∧ r'.status = if r.expiresAt ≤ now then .expired else .pending := by
  obtain ⟨hs, htries, hlease⟩ := hex
  have htts := ((hi.shape r hr).speech hs).2
  by_cases hold : r.expiresAt ≤ now
  · refine ⟨r.expire now .alertExpired, ?_, rfl, htts, (if_pos hold).symm⟩
    unfold releaseExhausted
    rw [Table.mem_update]
    refine ⟨r.expire now .alertExpired, ?_, if_neg fun h => by cases h.1⟩
    unfold expireAll
    rw [Table.mem_update]
    exact ⟨r, hr, if_pos ⟨Or.inl hs, hold⟩⟩
  · refine ⟨r.abandonSpeech, ?_, rfl, htts, (if_neg hold).symm⟩
    unfold releaseExhausted
    rw [Table.mem_update]
    refine ⟨r, ?_, if_pos ⟨hs, not_le.mp hold, htries, hlease⟩⟩
    unfold expireAll
    rw [Table.mem_update]
    exact ⟨r, hr, if_neg fun h => hold h.2⟩

/-- After a claim, no row prepares with its attempts spent; the rows
that did go on without speech, or expire when their time is over. -/
theorem claimPreparation_exhausted (hi : Inv db) (now : Time)
    (locked : List Nat) :
    (∀ r' ∈ (claimPreparation now locked db).2.playbacks,
        ¬ r'.Exhausted now)
      ∧ ∀ r ∈ db.playbacks, r.Exhausted now →
        ∃ r' ∈ (claimPreparation now locked db).2.playbacks,
          r'.queueSequence = r.queueSequence ∧ r'.ttsAssetID = none
            ∧ r'.status
              = if r.expiresAt ≤ now then .expired else .pending := by
  have hi₂ : Inv (releaseExhausted now (expireAll now db)) :=
    hi.steps (steps_swept (g := {}) now)
  rcases claimPreparation_cases hi now locked with heq | hclaim
  · rw [heq]
    exact ⟨swept_not_exhausted, fun r hr hex => exhausted_swept hi hr hex⟩
  · obtain ⟨c, -, hmem, hprep, -, hdb⟩ := hclaim
    rw [hdb]
    refine ⟨fun r' hr' hex => ?_, fun r hr hex => ?_⟩
    · rw [Table.mem_update] at hr'
      obtain ⟨s, hs, he⟩ := hr'
      split at he
      case isTrue =>
        subst he
        exact s.claimPreparation_leased now hex.2.2
      case isFalse =>
        subst he
        exact swept_not_exhausted s hs hex
    · obtain ⟨s, hs, hq, htts, hst⟩ := exhausted_swept hi hr hex
      refine ⟨s, ?_, hq, htts, hst⟩
      rw [Table.mem_update]
      refine ⟨s, hs, if_neg fun hid => ?_⟩
      have heq := hi₂.ids s hs c hmem hid
      rw [heq, hprep.1] at hst
      split at hst <;> cases hst

-- ====================================== runs

/-- Speech preparation on every run. A playback is claimed for the
attempts `1, .., k`, at most three, each with its own number as
generation, and its row carries the last of them. A report counts
exactly while its generation is the last one and the playback is still
preparing; any other report is a conflict that changes nothing. Speech
is attached once at most. A claim leaves no playback preparing whose
attempts are used and whose lease is over. -/
theorem speech_preparation_fenced (acts : List Action) :
    let db := Run.run apply Db.init acts
    (∀ n, ∃ k ≤ preparationTries, claimsOf n acts = firstClaims k
        ∧ ∀ r ∈ db.playbacks, r.queueSequence = n →
          r.preparationGeneration = k)
      ∧ (∀ preparation media assetID now,
        (∀ asset ∈ db.assets, asset.assetID ≠ assetID) →
        ((completePreparation preparation media assetID now db).1 = .ok ()
            ↔ Current preparation db)
          ∧ (¬ Current preparation db →
            completePreparation preparation media assetID now db
              = (.error .conflict, db)))
      ∧ (∀ preparation now,
        ((failPreparation preparation now db).1 = .ok ()
            ↔ Current preparation db)
          ∧ (¬ Current preparation db →
            failPreparation preparation now db = (.error .conflict, db)))
      ∧ (Run.log apply spokenBy Db.init acts).Nodup
      ∧ ∀ now locked,
        (∀ r' ∈ (claimPreparation now locked db).2.playbacks,
            ¬ r'.Exhausted now)
          ∧ ∀ r ∈ db.playbacks, r.Exhausted now →
            ∃ r' ∈ (claimPreparation now locked db).2.playbacks,
              r'.queueSequence = r.queueSequence ∧ r'.ttsAssetID = none
                ∧ r'.status
                  = if r.expiresAt ≤ now then .expired else .pending := by
  intro db
  have hi : Inv db := Reachable.inv ⟨acts, rfl⟩
  refine ⟨fun n => ?_, fun preparation media assetID now hfresh => ?_,
    fun preparation now => failPreparation_eq hi preparation now,
    spoken_once acts, fun now locked => ?_⟩
  · obtain ⟨k, hk, hclaims, hrows, -⟩ := claimsOf_eq n acts
    exact ⟨k, hk, hclaims, hrows⟩
  · exact completePreparation_eq hi preparation media now hfresh
  · exact claimPreparation_exhausted hi now locked

/-- A run that queues one playback with speech and claims it. -/
def claimedRun : List Action :=
  [.updateSettings 1
      { enabled := true, enabledSources := [], displayDurationMS := 7000
        soundVolume := 80, ttsEnabled := true, ttsVoice := "ru"
        ttsVolume := 80, accentColor := "#f59e0b", imageAssetID := none
        soundAssetID := none },
    .createTest 1 0 { playbackID := 10, gap := 0 },
    .claimPreparation 0 []]

/-- The claim of that run. -/
def lateReport : Preparation :=
  { playbackID := 10, userID := 1, generation := 1, attempts := 1
    text := "This is a test donation alert.", voice := "ru" }

/-- A lease that is over does not fence: one minute after the two
minutes of its lease, the only claim still completes. -/
theorem completed_after_lease :
    let db := Run.run apply Db.init claimedRun
    let media : Media :=
      { mimeType := "audio/mpeg", contentHash := "speech", durationMS := 1500 }
    (claimPreparation 0 [] (Run.run apply Db.init (claimedRun.take 2))).1
        = .ok (some lateReport)
      ∧ (∀ r ∈ db.playbacks.rows, r.PreparedBy lateReport →
        r.Unleased (3 * minute))
      ∧ (completePreparation lateReport media 20 (3 * minute) db).1
        = .ok () := by
  decide

end StreamBrew.Alert
