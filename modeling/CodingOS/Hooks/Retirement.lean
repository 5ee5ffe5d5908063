import CodingOS.Hooks.RoundTrip
import CodingOS.Python.SampleProcess

/-!
# What is retired for good

The installation is meant to retire the legacy lifecycle commands and nothing else.  Here that document is
defined by itself, and compared with what the round trip leaves.
-/

namespace CodingOS.Hooks

open CodingOS.Python

section Retire

variable {predicate : Mapping → Bool}

/-- A group without these commands; it goes when it held nothing else. -/
def retireGroup (predicate : Mapping → Bool) (g : HookGroup) : Option HookGroup :=
  if g.commands.any predicate then
    match g.commands.filter fun c => !predicate c with
    | [] => none
    | c :: cs => some (g.withCommands (c :: cs))
  else some g

/-- An event without these commands; it goes when its groups all went. -/
def retireEvent (predicate : Mapping → Bool) (e : String × List HookGroup) : Option (String × List HookGroup) :=
  if (e.2.any fun g => g.commands.any predicate) ∧ (e.2.filterMap (retireGroup predicate)).isEmpty then none
  else some (e.1, e.2.filterMap (retireGroup predicate))

/-- The document with exactly these commands removed, and the groups and events emptied by that. -/
def retireCommands (predicate : Mapping → Bool) (d : HooksDocument) : HooksDocument :=
  d.withEvents (d.events.filterMap (retireEvent predicate))

theorem retireGroup_of_ne_nil {g : HookGroup} (hne : g.commands ≠ []) :
    retireGroup predicate g = stripGroup predicate g := by
  unfold retireGroup
  split
  · rfl
  · next hany =>
      refine (stripGroup_of_clean hne fun c hc => ?_).symm
      exact Bool.eq_false_iff.mpr fun htrue => hany (List.any_eq_true.mpr ⟨c, hc, htrue⟩)

theorem retireGroup_of_nil {g : HookGroup} (hnil : g.commands = []) : retireGroup predicate g = some g := by
  unfold retireGroup
  rw [hnil, List.any_nil, if_neg Bool.false_ne_true]

theorem retireEvent_of_noEmptyGroup {e : String × List HookGroup} (hne : ∀ g ∈ e.2, g.commands ≠ []) :
    retireEvent predicate e = stripEvent predicate e := by
  have hgroups : e.2.filterMap (retireGroup predicate) = e.2.filterMap (stripGroup predicate) :=
    List.filterMap_congr fun g hg => retireGroup_of_ne_nil (hne g hg)
  unfold retireEvent stripEvent
  rw [hgroups]
  cases e.2.filterMap (stripGroup predicate) with
  | nil => simp
  | cons g gs => simp

/-- An event left without a group had none, when every group had a command. -/
theorem stripEvent_groups {e x : String × List HookGroup} (hgroups : ∀ g ∈ e.2, g.commands ≠ [])
    (h : stripEvent predicate e = some x) (hempty : x.2 = []) : e.2 = [] := by
  have hnil : e.2.filterMap (stripGroup predicate) = [] := by
    rw [stripEvent_eq_some h] at hempty
    exact hempty
  by_contra hne
  obtain ⟨g, hg⟩ := List.exists_mem_of_ne_nil _ hne
  have hgone : stripGroup predicate g = none := List.filterMap_eq_nil_iff.mp hnil g hg
  have hany : g.commands.any predicate = true := by
    by_contra hclean
    have hkept : stripGroup predicate g = some g := stripGroup_of_clean (hgroups g hg) fun c hc =>
      Bool.eq_false_iff.mpr fun htrue => hclean (List.any_eq_true.mpr ⟨c, hc, htrue⟩)
    rw [hkept] at hgone
    cases hgone
  have hremoved : e.2.any (fun g => g.commands.any predicate) = true := List.any_eq_true.mpr ⟨g, hg, hany⟩
  unfold stripEvent at h
  simp only [hnil, hremoved, if_true] at h
  cases h

/-- An event with a group that had no command stays, and the group with it. -/
theorem retireEvent_of_empty {e : String × List HookGroup} {g : HookGroup} (hg : g ∈ e.2) (hnil : g.commands = []) :
    retireEvent predicate e = some (e.1, e.2.filterMap (retireGroup predicate))
      ∧ g ∈ e.2.filterMap (retireGroup predicate) := by
  have hmem : g ∈ e.2.filterMap (retireGroup predicate) :=
    List.mem_filterMap.mpr ⟨g, hg, retireGroup_of_nil hnil⟩
  refine ⟨if_neg fun h => ?_, hmem⟩
  rw [List.isEmpty_iff.mp h.2] at hmem
  cases hmem

theorem freezeEvents_withEvents {d : HooksDocument} {events events' : Events}
    (h : freeze (d.withEvents events).value = freeze (d.withEvents events').value) :
    freezeEvents events = freezeEvents events' := freezeEvents_of_freeze h

/-- **When nothing but the legacy commands goes.** -/
theorem restoredDocument_eq_iff [Runtime] {d : HooksDocument} :
    freeze (restoredDocument d).value = freeze (retireCommands legacyLifecycleHook d).value
      ↔ NoEmptyGroup d.events ∧ (campaignHookEvent, []) ∉ d.events := by
  constructor
  · intro h
    have hevents := freezeEvents_withEvents h
    have hfrozen : ∀ x ∈ d.events.filterMap (retireEvent legacyLifecycleHook),
        ∃ y ∈ restoredEvents d.events, freezeEvent y = freezeEvent x := by
      intro x hx
      have hmem : freezeEvent x ∈ freezeEvents (restoredEvents d.events) := by
        rw [hevents]
        exact mem_sortByKey.mpr (List.mem_map_of_mem hx)
      exact List.mem_map.mp (mem_sortByKey.mp hmem)
    refine ⟨fun e he g hg hnil => ?_, fun he => ?_⟩
    · obtain ⟨hretired, hkept⟩ : retireEvent legacyLifecycleHook e = some _ ∧ g ∈ _ := retireEvent_of_empty hg hnil
      obtain ⟨y, hy, hsame⟩ := hfrozen _ (List.mem_filterMap.mpr ⟨e, he, hretired⟩)
      -- the group is there with no command, and stripping leaves none such
      have hgroup : g.freeze ∈ y.2.map HookGroup.freeze := by
        rw [(Prod.mk.inj hsame).2]
        exact List.mem_map_of_mem hkept
      obtain ⟨k, hk, hfreeze⟩ := List.mem_map.mp hgroup
      have hcommands : k.commands.map Mapping.freeze = g.commands.map Mapping.freeze :=
        congrArg HookGroup.commands hfreeze
      rw [hnil, List.map_nil, List.map_eq_nil_iff] at hcommands
      exact (strip_noEmptyGroup d.events).dropManaged y hy k hk hcommands
    · obtain ⟨y, hy, hsame⟩ := hfrozen (campaignHookEvent, []) (List.mem_filterMap.mpr ⟨_, he, rfl⟩)
      obtain ⟨hname, hgroups⟩ := Prod.mk.inj hsame
      have hempty : y.2 = [] := List.map_eq_nil_iff.mp hgroups
      have hdropped := (List.mem_filter.mp hy).2
      rw [hname, hempty] at hdropped
      cases hdropped
  · rintro ⟨hgroups, hmanaged⟩
    have hstrip : d.events.filterMap (retireEvent legacyLifecycleHook)
        = d.events.filterMap (stripEvent legacyLifecycleHook) :=
      List.filterMap_congr fun e he => retireEvent_of_noEmptyGroup (hgroups e he)
    have hkept : restoredEvents d.events = d.events.filterMap (stripEvent legacyLifecycleHook) := by
      refine List.filter_eq_self.mpr fun x hx => ?_
      obtain ⟨e, he, hevent⟩ := List.mem_filterMap.mp hx
      rw [Bool.not_eq_true', Bool.and_eq_false_iff]
      by_contra hboth
      have hname : x.1 = campaignHookEvent := by
        by_contra hne
        exact hboth (.inl (beq_false_of_ne hne))
      have hempty : x.2 = [] := by
        by_contra hne
        exact hboth (.inr (by simpa using hne))
      have hnogroup : e.2 = [] := stripEvent_groups (hgroups e he) hevent hempty
      have hename : e.1 = campaignHookEvent := by rw [← hname, stripEvent_eq_some hevent]
      exact hmanaged (by rw [← hename, ← hnogroup]; exact he)
    rw [restoredDocument, retireCommands, hkept, hstrip]

end Retire

/-! ### The round trip -/

/-- What the uninstallation has to leave: no file where there was none, and elsewhere the document without
the legacy commands, whatever the order of the members of an object. -/
def RoundTrips [Runtime] [HooksHost] (raw : Option Bytes) (d : HooksDocument) (after : Option Bytes) : Prop :=
  match raw with
  | none => after = none
  | some _ => ∃ content k, after = some content ∧ loadHooksDocument (some content) = .ok k
      ∧ freeze k.value = freeze (retireCommands legacyLifecycleHook d).value

section Claim

variable [Runtime] [HooksHost] {codexHome : String} {d : HooksDocument}

theorem roundTrips_iff {raw : Option Bytes} (hload : loadHooksDocument raw = .ok d) (hread : ReadsBack (restoredDocument d)) :
    RoundTrips raw d (raw.map fun _ => jsonBytes (restoredDocument d).value)
      ↔ NoEmptyGroup d.events ∧ (campaignHookEvent, []) ∉ d.events := by
  cases raw with
  | none =>
      have hempty : d = emptyDocument := (Except.ok.inj hload).symm
      subst hempty
      exact iff_of_true rfl ⟨fun e he => absurd he List.not_mem_nil, List.not_mem_nil⟩
  | some content =>
      have hloaded := loadHooksDocument_readsBack hread
      rw [← restoredDocument_eq_iff]
      constructor
      · rintro ⟨written, k, hwritten, hk, hsame⟩
        obtain rfl : jsonBytes (restoredDocument d).value = written := Option.some.inj hwritten
        rw [hloaded, Except.ok.injEq] at hk
        subst hk
        rw [← hsame, HooksDocument.freeze_value, Python.freeze_freeze]
      · intro hsame
        refine ⟨_, _, rfl, hloaded, ?_⟩
        rw [HooksDocument.freeze_value, Python.freeze_freeze, hsame]

variable [FileDigest]

end Claim

/-! ### Two documents -/

namespace HooksSample

open scoped CodingOS.Python.SampleProcess

def keepCommand : Mapping := [("command", .str "user_pre")]

def legacyCommand : Mapping :=
  [("command", .str "/h/coding-os/hooks/anti-loop-runtime/anti_loop_runtime.py")]

def userGroup (commands : List Mapping) : HookGroup where
  fields := [("hooks", .tuple (commands.map .mapping)), ("matcher", .str ".*")]
  commands := commands
  holds := rfl

def userDocument (events : Events) : HooksDocument where
  fields := [("hooks", .mapping (eventsValue events))]
  events := events
  holds := rfl

/-- A legacy command beside one of the user, and one alone. -/
def migratedDocument : HooksDocument :=
  userDocument [("PostToolUse", [userGroup [legacyCommand]]), ("PreToolUse", [userGroup [keepCommand, legacyCommand]])]

/-- A group without a command. -/
def idleDocument : HooksDocument := userDocument [("Stop", [userGroup []])]

/-- A process at `/h` that reads nothing. -/
@[reducible] def blindHost : HooksHost where
  loads _ := .ok none
  executable := "python3"
  separator := '/'
  configurationPath home := home ++ "/hooks.json"
  recordedPath text := text

/-- The documents that are read. -/
def written : List HooksDocument :=
  [migratedDocument, @installedDocument _ blindHost "/h" migratedDocument, restoredDocument migratedDocument,
   idleDocument, @installedDocument _ blindHost "/h" idleDocument, restoredDocument idleDocument]

/-- The same process, reading these documents. -/
scoped instance host : HooksHost where
  loads content := .ok ((written.find? fun k => jsonBytes k.value = content).map fun k => freeze k.value)
  executable := blindHost.executable
  separator := blindHost.separator
  configurationPath := blindHost.configurationPath
  recordedPath := blindHost.recordedPath

/-- One digest for the group of the user, another for all else. -/
scoped instance digest : FileDigest where
  sha256 content :=
    String.ofList (List.replicate 64
      (if content = Utf8.encode (canonicalJson (userGroup [keepCommand]).value) then 'a' else 'b'))

theorem encode_injective {s t : String} (h : Utf8.encode s = Utf8.encode t) : s = t := by
  have hdata : s.toUTF8.data = t.toUTF8.data := Array.ext' h
  exact String.toByteArray_inj.mp (ByteArray.ext hdata)

/-- The texts of the documents: they are told apart, freezing leaves them, and none holds the command of the
campaign. -/
theorem written_texts : (written.map fun k => jsonIndented 0 k.value).Nodup ∧
    migratedDocument.freeze.value = migratedDocument.value ∧ idleDocument.freeze.value = idleDocument.value ∧
    canonicalJson (campaignHookGroup "/h").value ≠ canonicalJson (userGroup [keepCommand]).value ∧
    NoCommand campaignHookCommand migratedDocument.events ∧
    NoCommand campaignHookCommand idleDocument.events := by
  unfold NoCommand
  refine ⟨?_, ?_, ?_, ?_, ?_, ?_⟩ <;> decide +kernel

theorem jsonBytes_injOn {k k' : HooksDocument} (hk : k ∈ written) (hk' : k' ∈ written)
    (h : jsonBytes k.value = jsonBytes k'.value) : k = k' := by
  have htexts := congrArg String.toList (encode_injective h)
  rw [String.toList_append, String.toList_append] at htexts
  exact List.inj_on_of_nodup_map written_texts.1 hk hk' (String.toList_inj.mp (List.append_cancel_right htexts))

theorem readsBack {k : HooksDocument} (hk : k ∈ written) : ReadsBack k := by
  have hfind : written.find? (fun k' => jsonBytes k'.value = jsonBytes k.value) = some k := by
    cases hfound : written.find? fun k' => jsonBytes k'.value = jsonBytes k.value with
    | none => exact absurd (List.find?_eq_none.mp hfound k hk) (by simp)
    | some k' =>
        have hbytes : jsonBytes k'.value = jsonBytes k.value := by simpa using List.find?_some hfound
        rw [jsonBytes_injOn (List.mem_of_find?_eq_some hfound) hk hbytes]
  show Except.ok _ = _
  rw [hfind]
  rfl

theorem contains_casefold {text part : String} (hpart : casefold part = part) (h : contains text part = true) :
    isAscii part = true → contains (casefold text) part = true := by
  intro hascii
  unfold casefold at hpart ⊢
  rw [if_pos hascii] at hpart
  split
  · have hlower : part.toList.map Char.toLower = part.toList := by
      rw [← String.toList_ofList (l := part.toList.map Char.toLower), hpart]
    rw [contains, decide_eq_true_iff] at h ⊢
    rw [String.toList_ofList, ← hlower]
    exact h.map _
  · exact h

theorem isHash_replicate {c : Char} (h : isLowerHex (String.ofList [c]) = true) :
    isHash (String.ofList (List.replicate 64 c)) = true := by
  rw [isLowerHex, String.toList_ofList, List.all_cons, Bool.and_eq_true] at h
  rw [isHash, isLowerHex, String.length_ofList, String.toList_ofList, List.length_replicate]
  exact Bool.and_eq_true_iff.mpr ⟨rfl, List.all_eq_true.mpr fun d hd => (List.eq_of_mem_replicate hd).symm ▸ h.1⟩

theorem laws : HooksLaws where
  separator := .inl rfl
  folds _ _ hascii hpart h := contains_casefold hpart h hascii
  resolved _ := rfl
  hash content := by
    refine isHash_replicate ?_
    split <;> decide

theorem mem_written :
    migratedDocument ∈ written ∧ installedDocument "/h" migratedDocument ∈ written
      ∧ restoredDocument migratedDocument ∈ written ∧ idleDocument ∈ written
      ∧ installedDocument "/h" idleDocument ∈ written ∧ restoredDocument idleDocument ∈ written :=
  ⟨.head _, .tail _ (.head _), .tail _ (.tail _ (.head _)), .tail _ (.tail _ (.tail _ (.head _))),
    .tail _ (.tail _ (.tail _ (.tail _ (.head _)))), .tail _ (.tail _ (.tail _ (.tail _ (.tail _ (.head _)))))⟩

theorem load {k : HooksDocument} (hk : k ∈ written) (hfrozen : k.freeze = k) :
    loadHooksDocument (some (jsonBytes k.value)) = .ok k := by
  rw [loadHooksDocument_readsBack (readsBack hk), hfrozen]

theorem migrated_freeze : migratedDocument.freeze = migratedDocument :=
  HooksDocument.value_injective written_texts.2.1

theorem idle_freeze : idleDocument.freeze = idleDocument := HooksDocument.value_injective written_texts.2.2.1

end HooksSample

open HooksSample
open scoped CodingOS.Python.SampleProcess

/-- The manifest of an installation of nothing but the hooks. -/
def manifestOf (record : Mapping) : Mapping :=
  [("manifest_version", .int manifestVersion), ("targets", .mapping [("hooks_configuration", .mapping record)])]

theorem records_manifestOf (record : Mapping) : Records (manifestOf record) record where
  version := rfl
  target := ⟨_, record, rfl, rfl, rfl⟩

theorem managed_migrated :
    managedGroups (migratedDocument.events.filterMap (stripEvent legacyLifecycleHook))
      = [(userGroup [keepCommand, legacyCommand]).withCommands [keepCommand]] := by
  rfl

theorem told_migrated : Told "/h" migratedDocument := by
  intro g hg hdigest
  rw [managed_migrated, List.mem_singleton] at hg
  have huser : (userGroup [keepCommand, legacyCommand]).withCommands [keepCommand] = userGroup [keepCommand] :=
    HookGroup.value_injective rfl
  subst hg
  rw [huser] at hdigest
  have hgroup : canonicalJsonDigest (userGroup [keepCommand]).value = String.ofList (List.replicate 64 'a') := by
    show String.ofList (List.replicate 64 (if _ then 'a' else 'b')) = _
    rw [if_pos rfl]
  have howned : canonicalJsonDigest (campaignHookGroup "/h").value = String.ofList (List.replicate 64 'b') := by
    show String.ofList (List.replicate 64 (if _ then 'a' else 'b')) = _
    rw [if_neg fun h => written_texts.2.2.2.1 (encode_injective h)]
  rw [hgroup, howned] at hdigest
  exact absurd ((List.replicate_right_inj (by decide)).mp (String.ofList_injective hdigest)) (by decide)

theorem noCampaign_samples :
    NoCommand campaignHookCommand migratedDocument.events ∧ NoCommand campaignHookCommand idleDocument.events :=
  written_texts.2.2.2.2

end CodingOS.Hooks
