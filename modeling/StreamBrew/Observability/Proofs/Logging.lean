/-
Where the two loggers let the same fields through.

The handler fills its map in the order in which the fields are given, so
it publishes the given fields with the values of its sensitive names
replaced and the groups without values left out (`sanitize`). This is an
invariant of the levels that the groups of a logger have opened:
`addAttr_wrap` for attributes, `handle_wrap` for derived loggers.

What the handler redacts is redacted by the other (`isSensitive_of_key`),
not the other way round: the one keeps the separators that it does not
know, and looks at the name of a value only. `same_iff` compares the two
results field by field.
-/
import StreamBrew.Observability.Logging

namespace StreamBrew.Observability

open Nested.Fields

variable {tables : CaseTables}

-- ===================================== names

theorem filter_toLowerCase (before key : List Char) :
    (toLowerCase tables before key).filter alnum
      = (toLower tables key).filter alnum := by
  induction key generalizing before with
  | nil => rfl
  | cons c after ih =>
      have hcons : toLower tables (c :: after)
          = [if c.toNat < 128 then c.toLower else tables.simple c]
            ++ toLower tables after := rfl
      rw [toLowerCase, List.filter_append, ih, hcons, List.filter_append]
      refine congrArg (· ++ _) ?_
      split
      case isTrue => rfl
      case isFalse => exact tables.filter_full before c after

theorem filter_replacer (normalized : List Char) :
    (replacer normalized).filter alnum = normalized.filter alnum := by
  rw [replacer, List.filter_filter]
  refine List.filter_congr fun c _ => ?_
  have hne {s : Char} (hs : alnum s = false) (hc : alnum c = true) :
      (c != s) = true := by
    refine bne_iff_ne.mpr fun heq => ?_
    rw [heq, hs] at hc
    cases hc
  cases hc : alnum c with
  | false => rfl
  | true => rw [hne rfl hc, hne rfl hc, hne rfl hc]; rfl

/-- The web server finds the names of credentials. -/
theorem isSensitive_iff {key : String} :
    isSensitive tables key = true ↔ NamesCredential tables key := by
  have hletters : (toLowerCase tables [] key.toList).filter alnum
      = lettersAndDigits tables key := filter_toLowerCase [] key.toList
  unfold isSensitive NamesCredential
  simp only [hletters, List.any_eq_true, decide_eq_true_eq]
  exact Iff.rfl

theorem sensitiveParts_alnum :
    ∀ part ∈ sensitiveParts, part.toList.filter alnum = part.toList := by
  decide

/-- A name that is sensitive to the handler is sensitive. -/
theorem isSensitive_of_key {key : String}
    (h : sensitiveKey tables key = true) : isSensitive tables key = true := by
  obtain ⟨part, hpart, hinfix⟩ := List.any_eq_true.mp h
  refine List.any_eq_true.mpr ⟨part, hpart, decide_eq_true ?_⟩
  have hfilter := (of_decide_eq_true hinfix).filter alnum
  rw [sensitiveParts_alnum part hpart, filter_replacer,
    ← filter_toLowerCase []] at hfilter
  exact hfilter

-- =================================== handler

/-- What the handler lets through. -/
def sanitize (tables : CaseTables) : Fields → Fields
  | .nil => .nil
  | .leaf key value rest =>
      .leaf key (if sensitiveKey tables key then redacted else value)
        (sanitize tables rest)
  | .group key children rest =>
      hang key (sanitize tables children) ++ sanitize tables rest

theorem sanitize_append (f g : Fields) :
    sanitize tables (f ++ g) = sanitize tables f ++ sanitize tables g := by
  induction f with
  | nil => rfl
  | leaf key value rest ih =>
      rw [leaf_append, sanitize, ih, sanitize, leaf_append]
  | group key children rest _ ih =>
      rw [group_append, sanitize, ih, sanitize, append_assoc]

theorem keys_hang {key k : String} {f : Fields} (h : k ∈ (hang key f).keys) :
    k = key := by
  cases f with
  | nil => cases h
  | leaf | group => exact List.mem_singleton.mp h

theorem mem_keys_sanitize {f : Fields} {key : String}
    (h : key ∈ (sanitize tables f).keys) : key ∈ f.keys := by
  induction f with
  | nil => exact h
  | leaf k v rest ih =>
      rcases List.mem_cons.mp h with rfl | h
      · exact List.mem_cons_self
      · exact List.mem_cons_of_mem _ (ih h)
  | group k children rest _ ih =>
      rw [sanitize, keys_append] at h
      rcases List.mem_append.mp h with h | h
      · rw [keys_hang h]
        exact List.mem_cons_self
      · exact List.mem_cons_of_mem _ (ih h)

/-- Attributes go to the last level, sanitized. -/
theorem addAttr_wrap {levels : List (Fields × String)} (hfresh : Fresh levels)
    {last attrs : Fields} (hattrs : attrs.Distinct)
    (hlast : ∀ key ∈ attrs.keys, key ∉ last.keys) :
    addAttr tables (wrap levels last) (levels.map Prod.snd) attrs
      = wrap levels (last ++ sanitize tables attrs) := by
  induction attrs generalizing levels last with
  | nil => rw [addAttr, sanitize, append_nil]
  | leaf key value rest ih =>
      obtain ⟨hkey, hrest⟩ := hattrs
      have hnew := hlast key List.mem_cons_self
      have hstep (v : String) :
          addAttr tables ((wrap levels last).store key v
              (levels.map Prod.snd)) (levels.map Prod.snd) rest
            = wrap levels (last ++ leaf key v (sanitize tables rest)) := by
        rw [store_wrap hfresh hnew, ih hfresh hrest, append_assoc,
          leaf_append, nil_append]
        intro k hk hmem
        rw [keys_append] at hmem
        rcases List.mem_append.mp hmem with hmem | hmem
        · exact hlast k (List.mem_cons_of_mem _ hk) hmem
        · exact hkey (List.mem_singleton.mp hmem ▸ hk)
      rw [addAttr, hstep, hstep, sanitize]
      split
      case isTrue => rfl
      case isFalse => rfl
  | group key children rest ihc ih =>
      obtain ⟨hkey, hchildren, hrest⟩ := hattrs
      have hnew := hlast key List.mem_cons_self
      have hfresh' : Fresh (levels ++ [(last, key)]) := by
        intro p hp
        rcases List.mem_append.mp hp with hp | hp
        · exact hfresh p hp
        · rw [List.mem_singleton.mp hp]
          exact hnew
      have hopen : wrap levels last
          = wrap (levels ++ [(last, key)]) .nil := by
        rw [wrap_append, wrap, wrap, hang, append_nil]
      have hempty :
          ∀ k ∈ children.keys, k ∉ (Nested.Fields.nil : Fields).keys :=
        fun _ _ => List.not_mem_nil
      have hc := ihc hfresh' hchildren hempty
      rw [List.map_append, ← hopen, nil_append, wrap_append] at hc
      rw [addAttr]
      have hc' : addAttr tables (wrap levels last)
          (levels.map Prod.snd ++ [key]) children
            = wrap levels (last ++ hang key (sanitize tables children)) := hc
      rw [hc', ih hfresh hrest, append_assoc, sanitize]
      intro k hk hmem
      rw [keys_append] at hmem
      rcases List.mem_append.mp hmem with hmem | hmem
      · exact hlast k (List.mem_cons_of_mem _ hk) hmem
      · exact hkey (keys_hang hmem ▸ hk)

/-- A derived logger that has opened some levels publishes what it and its
record give at the last of them. -/
theorem handle_wrap {derivations : List Derivation} {record : Fields}
    {levels : List (Fields × String)} {last : Fields} {handler : FanoutHandler}
    (hfields : handler.fields = wrap levels last)
    (hgroups : handler.groups = levels.map Prod.snd) (hfresh : Fresh levels)
    (hgiven : (given derivations record).Distinct)
    (hlast : ∀ key ∈ (given derivations record).keys, key ∉ last.keys) :
    (derivations.foldl (FanoutHandler.derive tables) handler).handle tables
        record
      = wrap levels (last ++ sanitize tables (given derivations record)) := by
  induction derivations generalizing levels last handler with
  | nil =>
      rw [List.foldl_nil, FanoutHandler.handle, hfields, hgroups]
      exact addAttr_wrap hfresh hgiven hlast
  | cons derivation derivations ih =>
      rw [List.foldl_cons]
      cases derivation with
      | withAttrs attrs =>
          rw [given] at hgiven hlast ⊢
          rw [keys_append] at hlast
          have hstep : (handler.withAttrs tables attrs).fields
              = wrap levels (last ++ sanitize tables attrs) := by
            rw [FanoutHandler.withAttrs, hfields, hgroups]
            exact addAttr_wrap hfresh hgiven.append_left
              fun key hkey => hlast key (List.mem_append_left _ hkey)
          rw [FanoutHandler.derive,
            ih hstep hgroups hfresh hgiven.append_right, sanitize_append,
            append_assoc]
          intro key hkey hmem
          rw [keys_append] at hmem
          rcases List.mem_append.mp hmem with hmem | hmem
          · exact hlast key (List.mem_append_right _ hkey) hmem
          · exact hgiven.disjoint key hkey (mem_keys_sanitize hmem)
      | withGroup name =>
          rw [given] at hgiven hlast ⊢
          rw [FanoutHandler.derive, FanoutHandler.withGroup]
          by_cases hname : name = ""
          · rw [if_pos hname] at hgiven hlast ⊢
            rw [if_pos hname]
            exact ih hfields hgroups hfresh hgiven hlast
          · rw [if_neg hname] at hgiven hlast ⊢
            rw [if_neg hname]
            have hnew := hlast name List.mem_cons_self
            have hfresh' : Fresh (levels ++ [(last, name)]) := by
              intro p hp
              rcases List.mem_append.mp hp with hp | hp
              · exact hfresh p hp
              · rw [List.mem_singleton.mp hp]
                exact hnew
            generalize hopened : { handler with
              groups := handler.groups ++ [name] } = opened
            have hopen : opened.fields
                = wrap (levels ++ [(last, name)]) .nil := by
              rw [← hopened, wrap_append, wrap, wrap, hang, append_nil]
              exact hfields
            have hgroups' : opened.groups
                = (levels ++ [(last, name)]).map Prod.snd := by
              rw [← hopened, hgroups, List.map_append]
              rfl
            have hinner := ih hopen hgroups' hfresh' hgiven.2.1
              fun _ _ => List.not_mem_nil
            rw [hinner, wrap_append, nil_append, sanitize, sanitize,
              append_nil]
            rfl

theorem published_eq {derivations : List Derivation} {record : Fields}
    (h : (given derivations record).Distinct) :
    published tables derivations record
      = sanitize tables (given derivations record) := by
  have hempty : ∀ key ∈ (given derivations record).keys,
      key ∉ (Nested.Fields.nil : Fields).keys := fun _ _ => List.not_mem_nil
  have hroot : FanoutHandler.default.fields = wrap [] .nil := rfl
  exact handle_wrap hroot rfl nofun h hempty

-- ================================= agreement

theorem keys_redact (f : Fields) : (redact tables f).keys = f.keys := by
  induction f with
  | nil => rfl
  | leaf key value rest ih => rw [redact, keys, keys, ih]
  | group key children rest _ ih =>
      rw [redact]
      split
      case isTrue => rw [keys, keys, ih]
      case isFalse => rw [keys, keys, ih]

theorem sanitize_ne_nil {f : Fields} (hne : f ≠ .nil)
    (h : Alike tables f) : sanitize tables f ≠ .nil := by
  induction f with
  | nil => exact absurd rfl hne
  | leaf key value rest => nofun
  | group key children rest ih =>
      rw [sanitize, hang_of_ne (ih h.2.1 h.2.2.1)]
      nofun

/-- The two results, field by field. -/
theorem same_iff {f : Fields} (hf : f.Distinct) :
    (sanitize tables f).Same (redact tables f) ↔ Alike tables f := by
  induction f with
  | nil => exact iff_of_true (Same.refl _) trivial
  | leaf key value rest ih =>
      obtain ⟨hkey, hrest⟩ := hf
      have hfresh : key ∉ (redact tables rest).keys := by
        rw [keys_redact]
        exact hkey
      rw [sanitize, redact, same_leaf (mt mem_keys_sanitize hkey)
        hfresh, ih hrest, Alike]
      refine and_congr_left' ?_
      by_cases hgo : sensitiveKey tables key = true
      · rw [if_pos hgo, if_pos (isSensitive_of_key hgo)]
        exact iff_of_true rfl fun _ => Or.inl hgo
      · rw [if_neg hgo]
        split
        case isTrue hts =>
          exact ⟨fun heq _ => Or.inr heq, fun h => (h hts).resolve_left hgo⟩
        case isFalse hts => exact iff_of_true rfl fun h => absurd h hts
  | group key children rest ihc ih =>
      obtain ⟨hkey, hchildren, hrest⟩ := hf
      have hfresh : key ∉ (sanitize tables rest).keys :=
        mt mem_keys_sanitize hkey
      have hfresh' : key ∉ (redact tables rest).keys := by
        rw [keys_redact]
        exact hkey
      rw [sanitize, redact, Alike]
      cases hc : sanitize tables children with
      | nil =>
          -- the group is missing from what the handler publishes
          refine iff_of_false (fun h => ?_) fun h => ?_
          · have hpath := h [key]
            rw [hang, nil_append, read_of_not_mem hfresh] at hpath
            split at hpath
            case isTrue => rw [read_leaf] at hpath; cases hpath
            case isFalse => rw [read_group, read_nil] at hpath; cases hpath
          · exact sanitize_ne_nil h.2.1 h.2.2.1 hc
      | leaf | group =>
          have hne : sanitize tables children ≠ .nil := by
            rw [hc]
            intro h
            cases h
          have hchildren_ne : children ≠ .nil := fun heq => by
            rw [heq] at hne
            exact hne rfl
          rw [← hc, hang_of_ne hne, group_append, nil_append]
          split
          case isTrue hts =>
            refine iff_of_false (fun h => ?_) fun h => ?_
            · have hpath := h [key]
              rw [read_group, read_nil, read_leaf] at hpath
              cases hpath
            · rw [hts] at h
              cases h.1
          case isFalse hts =>
            rw [same_group hfresh hfresh', ihc hchildren, ih hrest]
            have hts' := Bool.eq_false_iff.mpr hts
            exact ⟨fun h => ⟨hts', hchildren_ne, h⟩, fun h => h.2.2⟩

/-- The web server lets nothing through below a sensitive name. -/
theorem redact_sealed (f : Fields) : Sealed tables (redact tables f) := by
  induction f with
  | nil =>
      rintro (_ | ⟨k, path⟩) v hread
      · cases hread
      · cases hread
  | leaf key value rest ih =>
      rintro (_ | ⟨k, path⟩) v hread hsensitive
      · cases hread
      · rw [redact, Nested.Fields.read] at hread
        split at hread
        case isTrue hk =>
          split at hread
          case isTrue hpath =>
            subst hk hpath
            obtain ⟨k, hk, hsensitive⟩ := hsensitive
            rw [List.mem_singleton.mp hk] at hsensitive
            rw [if_pos (isSensitive_iff.mpr hsensitive)] at hread
            cases hread
            rfl
          case isFalse => cases hread
        case isFalse => exact ih _ v hread hsensitive
  | group key children rest ihc ih =>
      rintro (_ | ⟨k, path⟩) v hread hsensitive
      · rw [read_nil] at hread
        cases hread
      · rw [redact] at hread
        split at hread
        case isTrue hts =>
          rw [Nested.Fields.read] at hread
          split at hread
          case isTrue =>
            split at hread
            case isTrue => cases hread; rfl
            case isFalse => cases hread
          case isFalse => exact ih _ v hread hsensitive
        case isFalse hts =>
          rw [Nested.Fields.read] at hread
          split at hread
          case isTrue hk =>
            obtain ⟨s, hs, hsensitive⟩ := hsensitive
            rcases List.mem_cons.mp hs with rfl | hs
            · exact absurd (isSensitive_iff.mpr (hk ▸ hsensitive)) hts
            · exact ihc path v hread ⟨s, hs, hsensitive⟩
          case isFalse => exact ih _ v hread hsensitive

/-- The two loggers agree: they let the same fields through, and nothing at
or below a sensitive name. -/
def Agree (tables : CaseTables) (derivations : List Derivation)
    (record : Fields) : Prop :=
  (published tables derivations record).Same
      (redact tables (given derivations record))
    ∧ Sealed tables (published tables derivations record)
    ∧ Sealed tables (redact tables (given derivations record))

/-- The two loggers agree on the fields of a logger and a record exactly
where both go through them alike. -/
theorem agree_iff {derivations : List Derivation} {record : Fields}
    (h : (given derivations record).Distinct) :
    Agree tables derivations record
      ↔ Alike tables (given derivations record) := by
  rw [← same_iff h, Agree, published_eq h]
  refine ⟨And.left, fun hsame => ⟨hsame, ?_, redact_sealed _⟩⟩
  intro path value hread hsensitive
  rw [hsame path] at hread
  exact redact_sealed _ path value hread hsensitive

section Witness

/-- Tables for names in ASCII. -/
def asciiTables : CaseTables := ⟨id, fun _ c _ => [c], fun _ _ _ => rfl⟩

/-- A logger for requests, and a record that has a credential. -/
def requestLogger : List Derivation :=
  [.withAttrs (.leaf "service" "platform" .nil), .withGroup "request"]

/-- A record with a token. -/
def credentialRecord : Fields :=
  .leaf "status" "failed" (.leaf "access_token" "abc" .nil)

/-- A request logger with a credential among its attributes: the services and
the web server let the same through. -/
theorem agree_iff_request :
    (given requestLogger credentialRecord).Distinct
      ∧ Agree asciiTables requestLogger credentialRecord := by
  have hdistinct : (given requestLogger credentialRecord).Distinct :=
    ⟨by decide, by decide, ⟨by decide, by decide, trivial⟩, trivial⟩
  refine ⟨hdistinct, (agree_iff hdistinct).mpr ?_⟩
  have hservice : isSensitive asciiTables "service" = false := by
    decide +kernel
  have hstatus : isSensitive asciiTables "status" = false := by
    decide +kernel
  have hrequest : isSensitive asciiTables "request" = false := by
    decide +kernel
  have htoken : sensitiveKey asciiTables "access_token" = true := by
    decide +kernel
  refine ⟨fun h => ?_, hrequest, nofun, ⟨fun h => ?_, ?_, trivial⟩, trivial⟩
  · exact nomatch hservice.symm.trans h
  · exact nomatch hstatus.symm.trans h
  · exact fun _ => Or.inl htoken

/-- The values of a group that is called after a credential. -/
def tokenRecord : Fields := .group "token" (.leaf "value" "abc" .nil) .nil

/-- The services publish what is in a group named token; the web server
redacts it. -/
theorem published_token :
    (given [] tokenRecord).Distinct
      ∧ (published asciiTables [] tokenRecord).read ["token", "value"]
        = some (some "abc")
      ∧ (redact asciiTables (given [] tokenRecord)).read ["token"]
        = some (some redacted)
      ∧ ¬Agree asciiTables [] tokenRecord := by
  have hdistinct : (given [] tokenRecord).Distinct :=
    ⟨List.not_mem_nil, ⟨List.not_mem_nil, trivial⟩, trivial⟩
  have hread : (published asciiTables [] tokenRecord).read ["token", "value"]
      = some (some "abc") := by decide
  refine ⟨hdistinct, hread, by decide, fun h => ?_⟩
  have htoken : isSensitive asciiTables "token" = true := by decide
  have hsealed := h.2.1 _ _ hread
    ⟨"token", List.mem_cons_self, isSensitive_iff.mp htoken⟩
  exact absurd hsealed (by decide)

end Witness

end StreamBrew.Observability
