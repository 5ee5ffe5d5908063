import CodingOS.Hooks.Frozen

/-!
# Installing the hooks and uninstalling them

What is left of `hooks.json` when the installation is taken back with nothing edited in between.  The group
of the installer is the last of its event, it is the only one with its digest, and it goes with the event
when no other group is there.  The legacy commands stay removed.
-/

namespace CodingOS.Hooks

open CodingOS.Python

/-! ### What stripping leaves -/

section Strip

variable {predicate : Mapping → Bool}

/-- No command of the events is one of these. -/
def NoCommand (predicate : Mapping → Bool) (events : Events) : Prop :=
  ∀ e ∈ events, ∀ g ∈ e.2, ∀ c ∈ g.commands, predicate c = false

/-- Every group has a command. -/
def NoEmptyGroup (events : Events) : Prop := ∀ e ∈ events, ∀ g ∈ e.2, g.commands ≠ []

theorem stripGroup_eq_some {g k : HookGroup} (h : stripGroup predicate g = some k) :
    k = g.withCommands (g.commands.filter fun c => !predicate c) ∧ k.commands ≠ [] := by
  unfold stripGroup at h
  cases hfilter : g.commands.filter fun c => !predicate c with
  | nil =>
      rw [hfilter] at h
      cases h
  | cons c cs =>
      rw [hfilter] at h
      cases h
      exact ⟨rfl, List.cons_ne_nil c cs⟩

theorem stripGroup_of_clean {g : HookGroup} (hne : g.commands ≠ []) (h : ∀ c ∈ g.commands, predicate c = false) :
    stripGroup predicate g = some g := by
  have hfilter : g.commands.filter (fun c => !predicate c) = g.commands :=
    List.filter_eq_self.mpr fun c hc => by rw [h c hc]; rfl
  unfold stripGroup
  rw [hfilter]
  cases hcommands : g.commands with
  | nil => exact absurd hcommands hne
  | cons c cs =>
      have hself := g.withCommands_commands
      rw [hcommands] at hself
      exact congrArg some hself

theorem stripEvent_eq_some {e x : String × List HookGroup} (h : stripEvent predicate e = some x) :
    x = (e.1, e.2.filterMap (stripGroup predicate)) := by
  unfold stripEvent at h
  cases hgroups : e.2.filterMap (stripGroup predicate) with
  | nil =>
      simp only [hgroups] at h
      split at h
      · cases h
      · exact (Option.some.inj h).symm
  | cons g gs =>
      simp only [hgroups] at h
      exact (Option.some.inj h).symm

theorem stripEvent_of_clean {e : String × List HookGroup}
    (h : ∀ g ∈ e.2, g.commands ≠ [] ∧ ∀ c ∈ g.commands, predicate c = false) :
    stripEvent predicate e = some e := by
  have hgroups : e.2.filterMap (stripGroup predicate) = e.2 := by
    rw [List.filterMap_congr fun g hg => stripGroup_of_clean (h g hg).1 (h g hg).2, List.filterMap_some]
  have hremoved : e.2.any (fun g => g.commands.any predicate) = false :=
    List.any_eq_false.mpr fun g hg => by
      rw [List.any_eq_false.mpr fun c hc => by rw [(h g hg).2 c hc]; exact Bool.false_ne_true]
      exact Bool.false_ne_true
  obtain ⟨name, groups⟩ := e
  unfold stripEvent
  rw [hgroups, hremoved]
  cases groups <;> rfl

/-- Every group that stripping leaves is a group that was there, with the commands that stay. -/
theorem mem_strip {events : Events} {x : String × List HookGroup} {k : HookGroup}
    (hx : x ∈ events.filterMap (stripEvent predicate)) (hk : k ∈ x.2) :
    ∃ e ∈ events, ∃ g ∈ e.2, k = g.withCommands (g.commands.filter fun c => !predicate c) ∧ k.commands ≠ [] := by
  obtain ⟨e, he, hstrip⟩ := List.mem_filterMap.mp hx
  rw [stripEvent_eq_some hstrip] at hk
  obtain ⟨g, hg, hgroup⟩ := List.mem_filterMap.mp hk
  exact ⟨e, he, g, hg, stripGroup_eq_some hgroup⟩

theorem strip_noEmptyGroup (events : Events) : NoEmptyGroup (events.filterMap (stripEvent predicate)) := by
  intro x hx k hk
  obtain ⟨_, _, _, _, _, hne⟩ := mem_strip hx hk
  exact hne

theorem strip_noCommand (events : Events) : NoCommand predicate (events.filterMap (stripEvent predicate)) := by
  intro x hx k hk c hc
  obtain ⟨_, _, g, _, rfl, _⟩ := mem_strip hx hk
  have hkept := (List.mem_filter.mp hc).2
  simpa using hkept

/-- Stripping brings no command in. -/
theorem NoCommand.strip {other : Mapping → Bool} {events : Events} (h : NoCommand other events) :
    NoCommand other (events.filterMap (stripEvent predicate)) := by
  intro x hx k hk c hc
  obtain ⟨e, he, g, hg, rfl, _⟩ := mem_strip hx hk
  exact h e he g hg c (List.mem_filter.mp hc).1

theorem strip_of_clean {events : Events} (hne : NoEmptyGroup events) (h : NoCommand predicate events) :
    events.filterMap (stripEvent predicate) = events := by
  rw [List.filterMap_congr fun e he => stripEvent_of_clean fun g hg => ⟨hne e he g hg, h e he g hg⟩,
    List.filterMap_some]

theorem map_fst_filterMap {f : String × List HookGroup → Option (String × List HookGroup)}
    (hkey : ∀ e x, f e = some x → x.1 = e.1) (events : Events) :
    List.Sublist ((events.filterMap f).map Prod.fst) (events.map Prod.fst) := by
  induction events with
  | nil => exact List.Sublist.slnil
  | cons e events ih =>
      rw [List.filterMap_cons]
      cases h : f e with
      | none => exact ih.cons _
      | some x =>
          rw [List.map_cons, List.map_cons, hkey e x h]
          exact ih.cons_cons _

end Strip

/-! ### The group of the installer -/

/-- Where the event of the installer has no group, it goes. -/
def dropManaged (events : Events) : Events :=
  events.filter fun e => !(e.1 == campaignHookEvent && e.2.isEmpty)

def managedGroups (events : Events) : List HookGroup := (events.lookup campaignHookEvent).getD []

theorem lookup_appendGroup (group : HookGroup) (events : Events) :
    (appendGroup group events).lookup campaignHookEvent = some (managedGroups events ++ [group]) := by
  unfold managedGroups
  induction events with
  | nil => simp [appendGroup]
  | cons e events ih =>
      obtain ⟨name, groups⟩ := e
      rw [appendGroup]
      split
      · next h => simp [h]
      · next h =>
          have hbeq : (campaignHookEvent == name) = false := beq_false_of_ne (Ne.symm h)
          rw [List.lookup_cons, hbeq, List.lookup_cons, hbeq]
          exact ih

theorem eraseGroup_of_ne {event : String} {e : String × List HookGroup} (h : e.1 ≠ event) (index : ℕ) :
    eraseGroup event index e = some e := if_neg h

theorem eraseGroup_eq_some {event : String} {index : ℕ} {e x : String × List HookGroup}
    (h : eraseGroup event index e = some x) : x.1 = e.1 := by
  unfold eraseGroup at h
  split at h
  · split at h
    · cases h
    · cases h
      rfl
  · cases h
    rfl

theorem removeGroup_of_not_mem {event : String} {events : Events} (h : event ∉ events.map Prod.fst) (index : ℕ) :
    removeGroup event index events = events := by
  have hself : ∀ e ∈ events, eraseGroup event index e = some e := by
    intro e he
    refine eraseGroup_of_ne (fun heq => h ?_) index
    rw [← heq]
    exact List.mem_map_of_mem he
  rw [removeGroup, List.filterMap_congr hself, List.filterMap_some]

theorem dropManaged_of_not_mem {events : Events} (h : campaignHookEvent ∉ events.map Prod.fst) :
    dropManaged events = events := by
  refine List.filter_eq_self.mpr fun e he => ?_
  have hne : e.1 ≠ campaignHookEvent := by
    intro heq
    rw [← heq] at h
    exact h (List.mem_map_of_mem he)
  rw [beq_false_of_ne hne]
  rfl

/-- Removing the appended group leaves the other groups, and the event with them. -/
theorem removeGroup_appendGroup (f : HookGroup → HookGroup) (group : HookGroup) {events : Events}
    (hdistinct : (events.map Prod.fst).Nodup) :
    removeGroup campaignHookEvent (managedGroups events).length
        ((appendGroup group events).map fun e => (e.1, e.2.map f))
      = (dropManaged events).map fun e => (e.1, e.2.map f) := by
  induction events with
  | nil => rfl
  | cons e events ih =>
      obtain ⟨name, groups⟩ := e
      obtain ⟨hnew, hrest⟩ := List.nodup_cons.mp hdistinct
      rw [appendGroup]
      by_cases h : name = campaignHookEvent
      · subst h
        have hkeys : campaignHookEvent ∉ (events.map fun e => (e.1, e.2.map f)).map Prod.fst := by
          rwa [List.map_map]
        have hlength : (managedGroups ((campaignHookEvent, groups) :: events)).length = (groups.map f).length := by
          simp [managedGroups]
        have herase : ((groups ++ [group]).map f).eraseIdx (groups.map f).length = groups.map f := by
          rw [List.map_append, List.eraseIdx_append_of_length_le le_rfl]
          simp
        have hremoved := removeGroup_of_not_mem hkeys (groups.map f).length
        rw [if_pos rfl, List.map_cons, hlength, removeGroup, List.filterMap_cons, ← removeGroup, hremoved,
          eraseGroup, if_pos rfl, herase, dropManaged, List.filter_cons, ← dropManaged,
          dropManaged_of_not_mem hnew]
        cases groups <;> rfl
      · have hlookup : managedGroups ((name, groups) :: events) = managedGroups events := by
          rw [managedGroups, List.lookup_cons, beq_false_of_ne (Ne.symm h), managedGroups]
        have hkept : dropManaged ((name, groups) :: events) = (name, groups) :: dropManaged events := by
          refine List.filter_cons_of_pos ?_
          rw [beq_false_of_ne h]
          rfl
        rw [if_neg h, List.map_cons, hlookup, removeGroup, List.filterMap_cons, ← removeGroup, ih hrest,
          eraseGroup_of_ne h, hkept, List.map_cons]

section Digest

variable [Runtime] [FileDigest]

/-- The appended group is found by its digest, when no other group has it. -/
theorem matchingGroups_append {digest : String} {groups : List HookGroup} {group : HookGroup}
    (hothers : ∀ g ∈ groups, canonicalJsonDigest g.value ≠ digest)
    (hgroup : canonicalJsonDigest group.value = digest) :
    matchingGroups digest (groups ++ [group]) = [groups.length] := by
  have hnone : (groups.zipIdx.filter fun g => canonicalJsonDigest g.1.value == digest) = [] := by
    refine List.filter_eq_nil_iff.mpr fun g hg => ?_
    rw [beq_false_of_ne (hothers g.1 (List.fst_mem_of_mem_zipIdx hg))]
    exact Bool.false_ne_true
  rw [matchingGroups, List.zipIdx_append, List.filter_append, hnone, List.nil_append]
  simp [hgroup]

end Digest

/-! ### The command of the installer is a campaign command -/

section Paths

variable [HooksHost]

theorem joinPath_of_last {parent : String} {c : Char} (name : String) (hlast : parent.toList.getLast? = some c)
    (hc : c ≠ HooksHost.separator) :
    (joinPath parent name).toList = parent.toList ++ HooksHost.separator :: name.toList := by
  rw [joinPath, if_neg (by rw [hlast]; exact fun h => hc (Option.some.inj h))]
  simp

theorem joinPath_suffix (parent name : String) :
    HooksHost.separator :: name.toList <:+ (joinPath parent name).toList := by
  unfold joinPath
  split
  · next h =>
      obtain ⟨front, hfront⟩ := List.getLast?_eq_some_iff.mp h
      exact ⟨front, by rw [String.toList_append, hfront]; simp⟩
  · exact ⟨parent.toList, by simp⟩

theorem campaignHookPath_suffix (laws : HooksHost.separator = '/' ∨ HooksHost.separator = '\\') (codexHome : String) :
    HooksHost.separator :: "hooks".toList ++ HooksHost.separator :: "campaign-engine".toList
      ++ HooksHost.separator :: "campaign_hook.py".toList <:+ (campaignHookPath codexHome).toList := by
  have hs : 's' ≠ HooksHost.separator := by
    rcases laws with h | h <;> rw [h] <;> decide
  have he : 'e' ≠ HooksHost.separator := by
    rcases laws with h | h <;> rw [h] <;> decide
  obtain ⟨front, hfront⟩ := joinPath_suffix codexHome "hooks"
  have hengine : (joinPath (joinPath codexHome "hooks") "campaign-engine").toList
      = (joinPath codexHome "hooks").toList ++ HooksHost.separator :: "campaign-engine".toList := by
    refine joinPath_of_last _ ?_ hs
    rw [← hfront, List.getLast?_append]
    rfl
  have hpath : (campaignHookPath codexHome).toList
      = (joinPath (joinPath codexHome "hooks") "campaign-engine").toList
        ++ HooksHost.separator :: "campaign_hook.py".toList := by
    refine joinPath_of_last _ ?_ he
    rw [hengine, List.getLast?_append]
    rfl
  refine ⟨front, ?_⟩
  rw [hpath, hengine, ← hfront]
  simp

end Paths

section Campaign

variable [Runtime]

theorem campaignHookGroupLocations_eq_nil {d : HooksDocument} :
    campaignHookGroupLocations d = [] ↔ NoCommand campaignHookCommand d.events := by
  unfold campaignHookGroupLocations NoCommand
  rw [List.flatMap_eq_nil_iff]
  refine forall₂_congr fun e _ => ?_
  rw [List.map_eq_nil_iff, List.filter_eq_nil_iff]
  constructor
  · intro h g hg c hc
    rw [← List.zipIdx_map_fst 0 e.2] at hg
    obtain ⟨x, hx, rfl⟩ := List.mem_map.mp hg
    have hgroup := h x hx
    rw [List.any_eq_true] at hgroup
    exact Bool.eq_false_iff.mpr fun htrue => hgroup ⟨c, hc, htrue⟩
  · intro h g hg hany
    obtain ⟨c, hc, htrue⟩ := List.any_eq_true.mp hany
    rw [h g.1 (List.fst_mem_of_mem_zipIdx hg) c hc] at htrue
    cases htrue

variable [HooksHost]

/-- What the process owes: the separator is one of two, folding keeps a folded ASCII part of a text, and a
resolved path resolves to itself. -/
structure HooksLaws [FileDigest] : Prop where
  separator : HooksHost.separator = '/' ∨ HooksHost.separator = '\\'
  folds : ∀ text part : String, isAscii part = true → casefold part = part →
    contains text part = true → contains (casefold text) part = true
  resolved : ∀ codexHome, HooksHost.recordedPath (HooksHost.configurationPath codexHome)
    = HooksHost.configurationPath codexHome
  hash : ∀ content, isHash (FileDigest.sha256 content) = true

theorem campaignHookCommand_campaignCommand [FileDigest] (laws : HooksLaws) (codexHome : String) :
    campaignHookCommand (campaignCommand codexHome) = true := by
  have hsuffix := campaignHookPath_suffix laws.separator codexHome
  have hquoted : HooksHost.separator :: "hooks".toList ++ HooksHost.separator :: "campaign-engine".toList
      ++ HooksHost.separator :: "campaign_hook.py".toList <:+: (shellQuote (campaignHookPath codexHome)).toList := by
    refine infix_shellQuote ?_ hsuffix.isInfix
    rcases laws.separator with h | h <;> rw [h] <;> decide
  have hcommand : HooksHost.separator :: "hooks".toList ++ HooksHost.separator :: "campaign-engine".toList
      ++ HooksHost.separator :: "campaign_hook.py".toList
        <:+: (shellQuote HooksHost.executable ++ " -B " ++ shellQuote (campaignHookPath codexHome)).toList := by
    rw [String.toList_append]
    exact hquoted.trans (List.suffix_append _ _).isInfix
  have hslashes : (HooksHost.separator :: "hooks".toList ++ HooksHost.separator :: "campaign-engine".toList
      ++ HooksHost.separator :: "campaign_hook.py".toList).map (fun c => if c = '\\' then '/' else c)
        = campaignHookSuffix.toList := by
    rcases laws.separator with h | h <;> rw [h] <;> decide
  have hascii : casefold campaignHookSuffix = campaignHookSuffix := by
    rw [casefold, if_pos (by decide)]
    decide
  have hsame : normalizedCommand campaignHookSuffix = campaignHookSuffix := by
    have hmap : String.ofList (campaignHookSuffix.toList.map fun c => if c = '\\' then '/' else c)
        = campaignHookSuffix := by decide
    rw [normalizedCommand, hmap, hascii]
  have hcontains : contains (normalizedCommand
      (shellQuote HooksHost.executable ++ " -B " ++ shellQuote (campaignHookPath codexHome)))
        (normalizedCommand campaignHookSuffix) = true := by
    rw [hsame]
    refine laws.folds _ _ (by decide) hascii ?_
    rw [contains, decide_eq_true_iff, String.toList_ofList, ← hslashes]
    exact hcommand.map _
  unfold campaignHookCommand hookCommandPointsTo
  refine List.any_eq_true.mpr ⟨"command", List.mem_cons_self, ?_⟩
  exact hcontains

end Campaign


/-! ### The record of the installation, as the manifest holds it -/

/-- The manifest of an installation that ended with this record: it is read back from JSON too. -/
structure Records (manifest record : Mapping) : Prop where
  version : manifest.read "manifest_version" = .int manifestVersion
  target : ∃ targets stored : Mapping, manifest.read "targets" = .mapping targets
    ∧ targets.read "hooks_configuration" = .mapping stored ∧ stored.freeze = record.freeze

theorem get?_of_freeze {stored record : Mapping} (h : stored.freeze = record.freeze) (key : String) :
    (stored.get? key).map freeze = (record.get? key).map freeze := by
  rw [← Mapping.get?_freeze, ← Mapping.get?_freeze, h]

theorem read_of_freeze {stored record : Mapping} (h : stored.freeze = record.freeze) {key : String} {w : Value}
    (hw : Solid w) (hrecord : record.get? key = some w) : stored.get? key = some w :=
  Solid.read hw (get?_of_freeze h key) hrecord

theorem isHash_ne_empty {text : String} (h : isHash text = true) : text ≠ "" := by
  rintro rfl
  exact absurd h (by decide)

section Record

variable [Runtime] [FileDigest] [HooksHost] {codexHome : String} {raw : Option Bytes}
  {unrelated installed : HooksDocument} {retired : List Mapping} {stored : Mapping}

theorem owned_of_freeze
    (h : stored.freeze = (hooksRecord codexHome none raw unrelated installed retired).freeze) :
    ∃ owned : Mapping, stored.read "owned_entries" = .tuple [.mapping owned]
      ∧ owned.get? "event" = some (.str campaignHookEvent)
      ∧ owned.get? "matcher" = some (.str campaignHookMatcher)
      ∧ owned.get? "digest" = some (.str (canonicalJsonDigest (campaignHookGroup codexHome).value)) := by
  have hrecord := get?_of_freeze h "owned_entries"
  have hentries : (hooksRecord codexHome none raw unrelated installed retired).get? "owned_entries"
      = some (.tuple [.mapping
        [ ("event", .str campaignHookEvent),
          ("matcher", .str campaignHookMatcher),
          ("digest", .str (canonicalJsonDigest (campaignHookGroup codexHome).value)) ]]) := by
    simp [hooksRecord, Mapping.get?_cons]
  rw [hentries, Option.map_some] at hrecord
  obtain ⟨v, hv, hfreeze⟩ := Option.map_eq_some_iff.mp hrecord
  rw [freeze_tuple] at hfreeze
  obtain ⟨items, rfl, hitems⟩ := items_of_freeze hfreeze
  obtain ⟨item, rest, rfl, hitem, hrest⟩ := List.map_eq_cons_iff.mp hitems
  obtain rfl : rest = [] := List.map_eq_nil_iff.mp hrest
  obtain ⟨owned, rfl, howned⟩ := entries_of_freeze hitem
  refine ⟨owned, by rw [Mapping.read, Mapping.getD, hv]; rfl, ?_, ?_, ?_⟩
  · exact read_of_freeze howned (Solid.str _) (by simp [Mapping.get?_cons])
  · exact read_of_freeze howned (Solid.str _) (by simp [Mapping.get?_cons])
  · exact read_of_freeze howned (Solid.str _) (by simp [Mapping.get?_cons])

theorem preinstall_of_freeze
    (h : stored.freeze = (hooksRecord codexHome none raw unrelated installed retired).freeze) :
    stored.read "preinstall_state" = presence raw ∧ stored.read "preinstall_sha256" = optionalSha256 raw := by
  have hstate : stored.get? "preinstall_state" = some (presence raw) :=
    read_of_freeze h (Solid.str _) (by simp [hooksRecord, Mapping.get?_cons])
  have hsolid : Solid (optionalSha256 raw) := by
    cases raw with
    | none => exact Solid.null
    | some content => exact Solid.str _
  have hsha256 : stored.get? "preinstall_sha256" = some (optionalSha256 raw) :=
    read_of_freeze h hsolid (by simp [hooksRecord, Mapping.get?_cons])
  constructor
  · rw [Mapping.read, Mapping.getD, hstate, Option.getD_some]
  · rw [Mapping.read, Mapping.getD, hsha256, Option.getD_some]

theorem validPreinstall_of_freeze (laws : HooksLaws)
    (h : stored.freeze = (hooksRecord codexHome none raw unrelated installed retired).freeze) :
    validPreinstall stored = true := by
  obtain ⟨hstate, hsha256⟩ := preinstall_of_freeze h
  rw [validPreinstall, hstate, hsha256]
  cases raw with
  | none => rfl
  | some content =>
      have hhash := laws.hash content
      have htruthy : (Value.str (FileDigest.sha256 content)).truthy = true :=
        bne_iff_ne.mpr (isHash_ne_empty hhash)
      have hblank : orBlank (optionalSha256 (some content)) = FileDigest.sha256 content := if_pos htruthy
      rw [hblank, hhash]
      rfl

/-- What the installation records is what the uninstallation accepts. -/
theorem validRecord_of_freeze (laws : HooksLaws)
    (h : stored.freeze = (hooksRecord codexHome none raw unrelated installed retired).freeze) :
    validRecord codexHome stored = true := by
  obtain ⟨owned, hentries, hevent, hmatcher, hdigest⟩ := owned_of_freeze h
  have hpath : stored.get? "path" = some (.str (HooksHost.configurationPath codexHome)) :=
    read_of_freeze h (Solid.str _) (by simp [hooksRecord, Mapping.get?_cons])
  have hmanaged : stored.get? "managed" = some (.bool true) :=
    read_of_freeze h (Solid.bool _) (by simp [hooksRecord, Mapping.get?_cons])
  have hprotocol : stored.get? "ownership_protocol" = some (.str hooksConfigurationProtocol) :=
    read_of_freeze h (Solid.str _) (by simp [hooksRecord, Mapping.get?_cons])
  have hinstalled : stored.get? "installed_sha256" = some (.str (FileDigest.sha256 (jsonBytes installed.value))) :=
    read_of_freeze h (Solid.str _) (by simp [hooksRecord, Mapping.get?_cons])
  have hunrelated : stored.get? "preserved_unrelated_digest" = some (.str (canonicalJsonDigest unrelated.value)) :=
    read_of_freeze h (Solid.str _) (by simp [hooksRecord, Mapping.get?_cons])
  have hentry : validEntry stored = true := by
    rw [validEntry, hentries]
    simp only [Mapping.read, Mapping.getD, hevent, hmatcher, hdigest, Option.getD_some, beq_self_eq_true,
      Value.text_str, Bool.true_and]
    exact laws.hash _
  rw [validRecord, hentry, validPreinstall_of_freeze laws h]
  simp only [Mapping.read, Mapping.getD, hpath, hmanaged, hprotocol, hinstalled, hunrelated, Option.getD_some,
    beq_self_eq_true, Value.text_str, Bool.true_and, laws.resolved, laws.hash]
  exact laws.hash _

theorem Records.previous (laws : HooksLaws) {manifest : Mapping}
    (h : Records manifest (hooksRecord codexHome none raw unrelated installed retired)) :
    ∃ stored, previousHooksConfiguration (some manifest) codexHome = .ok (some stored)
      ∧ stored.freeze = (hooksRecord codexHome none raw unrelated installed retired).freeze := by
  obtain ⟨targets, stored, htargets, hstored, hfreeze⟩ := h.target
  refine ⟨stored, ?_, hfreeze⟩
  have hstate : ((Mapping.read stored "preinstall_state").hashable) = true := by
    rw [(preinstall_of_freeze hfreeze).1]
    rfl
  have hversion : ((Value.int manifestVersion).eq (.int manifestVersion)) = true := by decide
  simp only [previousHooksConfiguration, h.version, hversion, if_true, htargets, hstored, hstate,
    validRecord_of_freeze laws hfreeze]
  rfl

end Record


/-! ### What the round trip leaves -/

theorem mem_managedGroups {events : Events} {g : HookGroup} (h : g ∈ managedGroups events) :
    ∃ e ∈ events, g ∈ e.2 := by
  unfold managedGroups at h
  cases hlookup : events.lookup campaignHookEvent with
  | none => rw [hlookup] at h; cases h
  | some groups =>
      rw [hlookup] at h
      obtain ⟨l, r, rfl, -⟩ := List.lookup_eq_some_iff.mp hlookup
      exact ⟨(campaignHookEvent, groups), by simp, h⟩

theorem NoCommand.dropManaged {predicate : Mapping → Bool} {events : Events} (h : NoCommand predicate events) :
    NoCommand predicate (dropManaged events) :=
  fun e he => h e (List.mem_filter.mp he).1

theorem NoEmptyGroup.dropManaged {events : Events} (h : NoEmptyGroup events) : NoEmptyGroup (dropManaged events) :=
  fun e he => h e (List.mem_filter.mp he).1

theorem NoCommand.freezeEvents {predicate : Mapping → Bool}
    (hfreeze : ∀ c : Mapping, predicate c.freeze = predicate c) {events : Events} (h : NoCommand predicate events) :
    NoCommand predicate (freezeEvents events) := by
  intro x hx k hk c hc
  obtain ⟨e, he, rfl⟩ := List.mem_map.mp (mem_sortByKey.mp hx)
  obtain ⟨g, hg, rfl⟩ := List.mem_map.mp hk
  obtain ⟨c', hc', rfl⟩ := List.mem_map.mp hc
  rw [hfreeze]
  exact h e he g hg c' hc'

theorem NoEmptyGroup.freezeEvents {events : Events} (h : NoEmptyGroup events) : NoEmptyGroup (freezeEvents events) := by
  intro x hx k hk
  obtain ⟨e, he, rfl⟩ := List.mem_map.mp (mem_sortByKey.mp hx)
  obtain ⟨g, hg, rfl⟩ := List.mem_map.mp hk
  exact fun hnil => h e he g hg (List.map_eq_nil_iff.mp hnil)

section RoundTrip

variable [Runtime]

/-- The events after the installation and the uninstallation. -/
def restoredEvents (events : Events) : Events :=
  dropManaged (events.filterMap (stripEvent legacyLifecycleHook))

/-- The document after the installation and the uninstallation. -/
def restoredDocument (d : HooksDocument) : HooksDocument := d.withEvents (restoredEvents d.events)

def installedDocument [HooksHost] (codexHome : String) (d : HooksDocument) : HooksDocument :=
  d.withEvents (appendGroup (campaignHookGroup codexHome) (d.events.filterMap (stripEvent legacyLifecycleHook)))

/-- `json.loads` reads back what `_json_bytes` writes of the document. -/
def ReadsBack [HooksHost] (d : HooksDocument) : Prop :=
  HooksHost.loads (jsonBytes d.value) = .ok (some (freeze d.value))

/-- No other group of the event has the digest of the group of the installer. -/
def Told [HooksHost] [FileDigest] (codexHome : String) (d : HooksDocument) : Prop :=
  ∀ g ∈ managedGroups (d.events.filterMap (stripEvent legacyLifecycleHook)),
    canonicalJsonDigest g.value = canonicalJsonDigest (campaignHookGroup codexHome).value →
      freeze g.value = freeze (campaignHookGroup codexHome).value

theorem loadHooksDocument_readsBack [HooksHost] {d : HooksDocument} (h : ReadsBack d) :
    loadHooksDocument (some (jsonBytes d.value)) = .ok d.freeze := by
  have hread : HooksHost.loads (jsonBytes d.value) = .ok (some (.mapping d.fields.freeze)) := h
  have hheld : Mapping.read d.fields.freeze "hooks" ≠ .null := by
    have hfield : Mapping.get? d.fields.freeze "hooks" = some (.mapping (eventsValue (freezeEvents d.events))) :=
      d.freeze.holds
    rw [Mapping.read, Mapping.getD, hfield]
    exact fun h => Value.noConfusion h
  simp only [loadHooksDocument, hread, withHooks, if_neg hheld]
  exact readDocument_eq_ok.mpr rfl

variable [FileDigest] [HooksHost] {codexHome : String} {d : HooksDocument}

/-- **The uninstallation finds its group.** -/
theorem removeOwnedCampaignHook_installed {stored : Mapping} (laws : HooksLaws)
    (hdistinct : (d.events.map Prod.fst).Nodup) (hnone : NoCommand campaignHookCommand d.events)
    (htold : Told codexHome d) {raw : Option Bytes} {unrelated installed : HooksDocument} {retired : List Mapping}
    (hstored : stored.freeze = (hooksRecord codexHome none raw unrelated installed retired).freeze) :
    removeOwnedCampaignHook (installedDocument codexHome d).freeze stored = .ok (restoredDocument d).freeze := by
  obtain ⟨owned, hentries, hevent, -, hdigest⟩ := owned_of_freeze hstored
  have hstripped : NoCommand campaignHookCommand (d.events.filterMap (stripEvent legacyLifecycleHook)) := hnone.strip
  have hkeys : ((d.events.filterMap (stripEvent legacyLifecycleHook)).map Prod.fst).Nodup :=
    hdistinct.sublist (map_fst_filterMap (fun e x h => by rw [stripEvent_eq_some h]) d.events)
  have hlookup : (installedDocument codexHome d).freeze.events.lookup campaignHookEvent
      = some ((managedGroups (d.events.filterMap (stripEvent legacyLifecycleHook))).map HookGroup.freeze
        ++ [(campaignHookGroup codexHome).freeze]) := by
    show (freezeEvents _).lookup campaignHookEvent = _
    rw [freezeEvents, lookup_sortByKey]
    have hmap : ∀ events : Events, (events.map freezeEvent).lookup campaignHookEvent
        = (events.lookup campaignHookEvent).map (List.map HookGroup.freeze) := by
      intro events
      induction events with
      | nil => rfl
      | cons e events ih =>
          obtain ⟨name, groups⟩ := e
          rw [List.map_cons, freezeEvent, List.lookup_cons, List.lookup_cons, ih]
          cases campaignHookEvent == name <;> rfl
    rw [hmap]
    show Option.map _ ((appendGroup _ _).lookup campaignHookEvent) = _
    rw [lookup_appendGroup, Option.map_some, List.map_append, List.map_singleton]
  have hothers : ∀ g ∈ (managedGroups (d.events.filterMap (stripEvent legacyLifecycleHook))).map HookGroup.freeze,
      canonicalJsonDigest g.value ≠ canonicalJsonDigest (campaignHookGroup codexHome).value := by
    intro k hk heq
    obtain ⟨g, hg, rfl⟩ := List.mem_map.mp hk
    rw [HookGroup.freeze_value, canonicalJsonDigest_freeze] at heq
    have hsame : g.freeze = (campaignHookGroup codexHome).freeze := HookGroup.value_injective (htold g hg heq)
    have hcommands : g.commands.map Mapping.freeze = [(campaignCommand codexHome).freeze] :=
      congrArg HookGroup.commands hsame
    obtain ⟨c, rest, hc, hfreeze, -⟩ := List.map_eq_cons_iff.mp hcommands
    obtain ⟨e, he, hge⟩ := mem_managedGroups hg
    -- the group would hold the command of the installer
    have hcampaign : campaignHookCommand c = true := by
      rw [campaignHookCommand, ← hookCommandPointsTo_freeze, hfreeze, hookCommandPointsTo_freeze]
      exact campaignHookCommand_campaignCommand laws codexHome
    rw [hstripped e he g hge c (hc ▸ List.mem_cons_self)] at hcampaign
    cases hcampaign
  have howned : canonicalJsonDigest (campaignHookGroup codexHome).freeze.value
      = canonicalJsonDigest (campaignHookGroup codexHome).value :=
    canonicalJsonDigest_freeze (campaignHookGroup codexHome).value
  have hremoved : removeGroup campaignHookEvent
      (managedGroups (d.events.filterMap (stripEvent legacyLifecycleHook))).length
        (installedDocument codexHome d).freeze.events = freezeEvents (restoredEvents d.events) := by
    show removeGroup _ _ (freezeEvents (appendGroup _ _)) = _
    rw [removeGroup, freezeEvents, sortByKey_filterMap fun e x h => eraseGroup_eq_some h, ← removeGroup]
    exact congrArg sortByKey (removeGroup_appendGroup HookGroup.freeze _ hkeys)
  have hentry : ownedEntry stored = owned := by rw [ownedEntry, hentries]
  have hname : owned.read "event" = .str campaignHookEvent := by rw [Mapping.read, Mapping.getD, hevent]; rfl
  have hsha256 : owned.read "digest" = .str (canonicalJsonDigest (campaignHookGroup codexHome).value) := by
    rw [Mapping.read, Mapping.getD, hdigest]; rfl
  unfold removeOwnedCampaignHook
  simp only [hentry, hname, hsha256, Value.text_str, hlookup, Option.getD_some]
  rw [matchingGroups_append hothers howned, List.length_map]
  simp only [hremoved]
  rw [installedDocument, HooksDocument.freeze_withEvents, HooksDocument.withEvents_withEvents,
    ← HooksDocument.freeze_withEvents]
  rfl

/-- The first installation over a document without a campaign command. -/
theorem prepareInstall_eq_ok {previous : Option Mapping} {live : LiveFile} {raw : Option Bytes}
    (hsource : installSource live = .ok raw) (hload : loadHooksDocument raw = .ok d)
    (hprevious : previousHooksConfiguration previous codexHome = .ok none)
    (hnone : NoCommand campaignHookCommand d.events) :
    ∃ unrelated retired, prepareInstallHooksConfiguration previous codexHome live
      = .ok (jsonBytes (installedDocument codexHome d).value,
          hooksRecord codexHome none raw unrelated (installedDocument codexHome d) retired) := by
  obtain ⟨retired, hretired⟩ : ∃ retired,
      mergeRetiredHookEvidence none (strippedCommands legacyLifecycleHook d) = .ok retired := ⟨_, rfl⟩
  have hunowned : unownedDocument none raw d = .ok d := by
    unfold unownedDocument
    simp only
    rw [if_neg fun h => h (campaignHookGroupLocations_eq_nil.mpr hnone)]
  have hstripped : campaignHookGroupLocations (stripHookCommands legacyLifecycleHook d) = [] :=
    campaignHookGroupLocations_eq_nil.mpr hnone.strip
  refine ⟨stripHookCommands legacyLifecycleHook d, retired, ?_⟩
  have hinstalled : (stripHookCommands legacyLifecycleHook d).withEvents
      (appendGroup (campaignHookGroup codexHome) (stripHookCommands legacyLifecycleHook d).events)
        = installedDocument codexHome d := HooksDocument.withEvents_withEvents d _ _
  simp only [prepareInstallHooksConfiguration, hsource, hload, hprevious, hunowned, hretired, hinstalled,
    bind, Except.bind, hstripped, ne_eq, not_true_eq_false, if_false]
  rfl

/-- **The uninstallation writes what the installation kept, and nothing where there was nothing.** -/
theorem prepareUninstall_installed {manifest : Mapping} {raw : Option Bytes} {unrelated : HooksDocument}
    {retired : List Mapping} (laws : HooksLaws) (hload : loadHooksDocument raw = .ok d)
    (hdistinct : (d.events.map Prod.fst).Nodup) (hnone : NoCommand campaignHookCommand d.events)
    (htold : Told codexHome d) (hread : ReadsBack (installedDocument codexHome d))
    (hmanifest : Records manifest
      (hooksRecord codexHome none raw unrelated (installedDocument codexHome d) retired)) :
    prepareUninstallHooksConfiguration manifest codexHome
        (.regular (jsonBytes (installedDocument codexHome d).value))
      = .ok (raw.map fun _ => jsonBytes (restoredDocument d).value) := by
  obtain ⟨stored, hprevious, hstored⟩ := hmanifest.previous laws
  have hremoved := removeOwnedCampaignHook_installed laws hdistinct hnone htold hstored
  have hlegacy : NoCommand legacyLifecycleHook (restoredDocument d).freeze.events :=
    (strip_noCommand d.events).dropManaged.freezeEvents fun c => hookCommandPointsTo_freeze c _
  have hcampaign : NoCommand campaignHookCommand (restoredDocument d).freeze.events :=
    hnone.strip.dropManaged.freezeEvents fun c => hookCommandPointsTo_freeze c _
  have hgroups : NoEmptyGroup (restoredDocument d).freeze.events :=
    (strip_noEmptyGroup d.events).dropManaged.freezeEvents
  have hstrip : stripHookCommands legacyLifecycleHook (restoredDocument d).freeze = (restoredDocument d).freeze := by
    rw [stripHookCommands, strip_of_clean hgroups hlegacy, HooksDocument.withEvents_events]
  have hlocations : campaignHookGroupLocations (restoredDocument d).freeze = [] :=
    campaignHookGroupLocations_eq_nil.mpr hcampaign
  have hbytes : jsonBytes (restoredDocument d).freeze.value = jsonBytes (restoredDocument d).value :=
    jsonBytes_freeze (restoredDocument d).value
  have hstate := (preinstall_of_freeze hstored).1
  cases raw with
  | none =>
      -- the document was empty, and is empty again
      have hempty : d = emptyDocument := (Except.ok.inj hload).symm
      subst hempty
      have hfields : (restoredDocument emptyDocument).freeze.fields = [("hooks", .mapping [])] := rfl
      simp only [prepareUninstallHooksConfiguration, hprevious, loadHooksDocument_readsBack hread, hremoved, hstrip,
        hlocations, hfields, hstate, bind, Except.bind, ne_eq, not_true_eq_false, if_false]
      rfl
  | some content =>
      have hpresent : stored.read "preinstall_state" ≠ .str "absent" := by
        rw [hstate]
        intro h
        simp [presence] at h
      simp only [prepareUninstallHooksConfiguration, hprevious, loadHooksDocument_readsBack hread, hremoved, hstrip,
        hlocations, hpresent, hbytes, bind, Except.bind, ne_eq, not_true_eq_false, if_false, false_and]
      rfl

end RoundTrip

end CodingOS.Hooks
