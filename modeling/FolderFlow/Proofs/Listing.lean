import FolderFlow.CommandLine.Run
import FolderFlow.Proofs.Cache
import FolderFlow.Proofs.Hosts
import FolderFlow.Proofs.Validate

/-!
# What a listing prints

The listing of the rules goes to the standard output or to a file, and the messages of a run go to
the standard output in either case. `Command.printed_eq_written_iff` compares the two: the same
bytes come out unless the flat linter configuration is asked for and an override has the name of the
generated rule. Then warnings stand before the listing, and what is printed is no JSON text.
-/

namespace FolderFlow

variable {α β : Type} {w w' : World} {path : String} {c : Config}

/-! ## Runs that only read -/

/-- The world is afterwards what it was before. -/
def ReadsOnly (x : Sandbox α) : Prop :=
  ∀ w, (x.run w).2 = w

namespace ReadsOnly

theorem pure (a : α) : ReadsOnly (Pure.pure a) :=
  fun _ => rfl

theorem bind {x : Sandbox α} {f : α → Sandbox β} (hx : ReadsOnly x) (hf : ∀ a, ReadsOnly (f a)) :
    ReadsOnly (x >>= f) := by
  intro w
  rw [run_bind, hf, hx]

theorem readText (path : String) : ReadsOnly (Host.readText path) :=
  fun _ => rfl

theorem pathExists (path : String) : ReadsOnly (Host.pathExists path) :=
  fun _ => rfl

theorem relatesLooks : Host.RelatesLooks fun α (x _ : Sandbox α) => ReadsOnly x where
  pure := .pure
  bind := .bind
  readText := .readText
  pathExists := .pathExists

end ReadsOnly

/-! ## Configurations that are loaded -/

namespace Config

theorem exists_validate_of_loadFile (h : ((loadFile path : Sandbox _).run w).1 = .ok c) :
    ∃ raw, validate raw = .ok c := by
  simp only [loadFile, run_bind, run_readText] at h
  split at h
  · rename_i text _
    simp only [run_pure, ofText] at h
    split at h
    · exact absurd h (by simp)
    · rename_i raw _
      exact ⟨raw, mapError_eq_ok_iff.mp h⟩
  · exact absurd h (by simp)
  · exact absurd h (by simp)

theorem exists_validate_of_loadProject {dir : String} {named : Option String}
    (h : ((loadProject dir named : Sandbox _).run w).1 = .ok c) : ∃ raw, validate raw = .ok c := by
  simp only [loadProject, run_bind] at h
  split at h
  · exact absurd h (by simp)
  · rename_i path _
    simp only [run_bind] at h
    split at h
    · rename_i found hfound
      obtain rfl := Except.ok.inj h
      exact exists_validate_of_loadFile hfound
    · exact absurd h (by simp)
    · exact absurd h (by simp)

end Config

theorem Command.readsOnly_load (config : Option String) : ReadsOnly (load config) :=
  ReadsOnly.relatesLooks.load config

theorem Command.exists_validate_of_load {config : Option String}
    (h : ((load config : Sandbox _).run w).1 = .ok c) : ∃ raw, Config.validate raw = .ok c := by
  simp only [load, run_bind, run_pure, mapError_eq_ok_iff] at h
  exact Config.exists_validate_of_loadProject h

/-! ## Messages -/

namespace World

theorem print_empty (w : World) : w.print "" = w := by
  simp [print]

theorem print_print (w : World) (text more : String) :
    (w.print text).print more = w.print (text ++ more) := by
  simp [print, String.append_assoc]

@[simp] theorem readText_print (w : World) (text path : String) :
    (w.print text).readText path = w.readText path := rfl

end World

namespace FlatConfig

/-- What is said of a folder with an override of the generated rule. -/
def warning (r : FolderRules) : String :=
  Level.warn.name ++ " " ++
    Log.escape ("overrideRules." ++ restrictedImports ++ " is replaced by the generated rule") ++
    " " ++ "folder" ++ "=" ++ r.folder ++ "\n"

def warnings (all : List FolderRules) : String :=
  String.join ((all.filter overridesGenerated).map warning)

end FlatConfig

open FlatConfig (warning warnings restrictedImports overridesGenerated)

/-- What is said before the rules are listed. -/
def Listing.notices (all : List FolderRules) (format : ListingFormat) : String :=
  if format = .eslint then warnings all else ""

namespace Command

theorem run_warnOverrides (all : List FolderRules) (w : World) :
    (warnOverrides all : Sandbox Unit).run w = ((), w.print (warnings all)) := by
  induction all generalizing w with
  | nil => exact Prod.ext rfl (w.print_empty).symm
  | cons r rs ih =>
    cases h : overridesGenerated r with
    | true =>
      have hlog : (Host.logWith .warn
          ("overrideRules." ++ restrictedImports ++ " is replaced by the generated rule")
          "folder" r.folder : Sandbox Unit).run w = ((), w.print (warning r)) := rfl
      simp only [warnOverrides, h, if_true, run_bind, hlog, ih, World.print_print]
      simp [warnings, h]
    | false =>
      simp only [warnOverrides, h, Bool.false_eq_true, if_false, ih]
      simp [warnings, h]

/-- Says what there is to say before the rules are listed. -/
def notify (all : List FolderRules) (format : ListingFormat) : Sandbox Unit :=
  if format = .eslint then warnOverrides all else return ()

/-- The notices come first, wherever the listing goes. -/
theorem runRules_eq (c : Config) (format : ListingFormat) (output : Option String) :
    runRules c format output =
      notify c.folderRules format >>= fun _ =>
        deliver (Listing.render c.folderRules format) output := by
  cases format <;> cases output <;> rfl

theorem run_notify (all : List FolderRules) (format : ListingFormat) (w : World) :
    (notify all format).run w = ((), w.print (Listing.notices all format)) := by
  unfold notify Listing.notices
  split
  · exact run_warnOverrides all w
  · exact Prod.ext rfl w.print_empty.symm

theorem run_deliver_none (rendered : String) (w : World) :
    (deliver rendered none : Sandbox _).run w = (.ok (), w.print (rendered ++ "\n")) :=
  rfl

/-- What was written stays when the run goes on to say so. -/
theorem readText_of_deliver {rendered : String}
    (h : (deliver rendered (some path) : Sandbox _).run w = (.ok (), w')) :
    w'.readText path = .ok (rendered ++ "\n") := by
  simp only [deliver, run_bind, run_writeText] at h
  generalize hwrite : w.writeText path (rendered ++ "\n") = written at h
  obtain ⟨result, between⟩ := written
  cases result with
  | error e => exact absurd (Prod.mk.inj h).1 (by simp)
  | ok =>
    simp only [run_log, run_bind, run_pure] at h
    obtain ⟨-, rfl⟩ := Prod.mk.inj h
    rw [World.readText_print]
    exact (World.touches_writeText hwrite).2

theorem run_rules {config output : Option String} {format : ListingFormat}
    (hload : ((load config : Sandbox _).run w).1 = .ok c) :
    (run config (.rules format output) : Sandbox _).run w =
      (deliver (Listing.render c.folderRules format) output : Sandbox _).run
        (w.print (Listing.notices c.folderRules format)) := by
  simp only [run, run_bind, hload, readsOnly_load config w, runRules_eq, run_notify]

end Command

theorem Invocation.run_perform {config : Option String} {command : Command} :
    ((Invocation.run config command).perform : Sandbox _).run w = (⟨0, none⟩, w') ↔
      (command.run config : Sandbox _).run w = (.ok (), w') := by
  simp only [perform, run_bind]
  generalize (command.run config : Sandbox _).run w = ended
  obtain ⟨result, after⟩ := ended
  cases result with
  | error e =>
    show ((⟨1, some e⟩ : Outcome), after) = (⟨0, none⟩, w') ↔
      ((.error e : Except CommandError Unit), after) = (.ok (), w')
    simp
  | ok =>
    show ((⟨0, none⟩ : Outcome), after) = (⟨0, none⟩, w') ↔
      ((.ok () : Except CommandError Unit), after) = (.ok (), w')
    simp

/-- What stands on the standard output after a listing. -/
theorem Command.run_printed {config : Option String} {format : ListingFormat}
    (hload : ((load config : Sandbox _).run w).1 = .ok c) :
    ((Invocation.run config (.rules format none)).perform : Sandbox _).run w =
      (⟨0, none⟩, w.print (Listing.notices c.folderRules format ++
        (Listing.render c.folderRules format ++ "\n"))) := by
  rw [Invocation.run_perform, run_rules hload, run_deliver_none, World.print_print]

/-- What stands in the output file after a listing. -/
theorem Command.readText_written {config : Option String} {format : ListingFormat}
    (hload : ((load config : Sandbox _).run w).1 = .ok c)
    (hwrite : ((Invocation.run config (.rules format (some path))).perform : Sandbox _).run w =
      (⟨0, none⟩, w')) :
    w'.readText path = .ok (Listing.render c.folderRules format ++ "\n") := by
  rw [Invocation.run_perform, run_rules hload] at hwrite
  exact readText_of_deliver hwrite

/-! ## Whether there are warnings -/

/-- Either no override has the name of the generated rule, or the warnings begin with a word. -/
theorem FlatConfig.warnings_cases (all : List FolderRules) :
    ((∀ r ∈ all, ¬ overridesGenerated r = true) ∧ warnings all = "") ∨
      ((∃ r ∈ all, overridesGenerated r = true) ∧ ∃ more, (warnings all).toList = 'W' :: more) := by
  unfold warnings
  cases h : all.filter overridesGenerated with
  | nil => exact Or.inl ⟨List.filter_eq_nil_iff.mp h, by simp⟩
  | cons r rs =>
    have hr : r ∈ all.filter overridesGenerated := h ▸ List.mem_cons_self
    refine Or.inr ⟨⟨r, List.mem_filter.mp hr⟩, ?_⟩
    have hletter : Level.warn.name.toList = ['W', 'A', 'R', 'N'] := rfl
    simp only [List.map_cons, String.join_cons, warning, String.toList_append, hletter]
    exact ⟨_, rfl⟩

theorem Config.exists_overridesGenerated_iff {raw : Members} (h : Describes raw c) :
    (∃ r ∈ c.folderRules, overridesGenerated r = true) ↔
      ∃ entry ∈ c.overrides, restrictedImports ∈ Members.keys entry.2 := by
  have hkeys (rules : Members) : (Members.find? rules restrictedImports).isSome = true ↔
      restrictedImports ∈ Members.keys rules := by
    rw [Members.find?, List.lookup_isSome_iff, Members.keys, List.mem_map]
    exact exists_congr fun entry => and_congr_right fun _ => by rw [beq_iff_eq, eq_comm]
  simp only [folderRules, List.mem_map, exists_exists_and_eq_and, overridesGenerated, rulesOf,
    hkeys, overridesOf]
  constructor
  · rintro ⟨folder, -, hmem⟩
    cases hfound : c.overrides.lookup folder with
    | none => exact absurd (hfound ▸ hmem) (by simp [Members.keys])
    | some rules =>
      rw [hfound] at hmem
      exact ⟨(folder, rules), (lookup_eq_some_iff_of_sortedByKey h.sortedByKey).mp hfound, hmem⟩
  · rintro ⟨⟨folder, rules⟩, hentry, hmem⟩
    refine ⟨folder, h.mem_folders hentry, ?_⟩
    rw [(lookup_eq_some_iff_of_sortedByKey h.sortedByKey).mpr hentry]
    exact hmem

/-- A text that begins with this letter is no JSON text. -/
theorem Json.parse?_eq_none {text : String} {more : List Char} (h : text.toList = 'W' :: more) :
    parse? text = none := by
  have hspace : skipSpace ('W' :: more) = 'W' :: more := rfl
  have hdigits : readDigits1 ('W' :: more) = none := rfl
  have hvalue : readValue 127 ('W' :: more) = none := by
    have hnumber : readValue 127 ('W' :: more) = readNumber ('W' :: more) := rfl
    simp [hnumber, readNumber, readNumberText, readWhole, hdigits]
  simp [parse?, parseWithin?, h, hspace, hvalue]

/-! ## The listing -/

namespace Listing

/-- Both formats for programs are written as one value. -/
theorem exists_render_eq_pretty (all : List FolderRules) {format : ListingFormat}
    (h : format ≠ .text) : ∃ j : Json, render all format = j.pretty := by
  cases format with
  | text => exact absurd rfl h
  | json => exact ⟨_, rfl⟩
  | eslint => exact ⟨_, rfl⟩

theorem notices_eq_empty_iff {raw : Members} (h : Config.Describes raw c) (format : ListingFormat) :
    notices c.folderRules format = "" ↔
      (format = .eslint → ∀ entry ∈ c.overrides, restrictedImports ∉ Members.keys entry.2) := by
  have hoverrides := Config.exists_overridesGenerated_iff h
  unfold notices
  by_cases heslint : format = .eslint
  · rw [if_pos heslint, imp_iff_right heslint, ← not_iff_not]
    simp only [not_forall, not_not, exists_prop]
    rw [← hoverrides]
    rcases FlatConfig.warnings_cases c.folderRules with ⟨hnone, hempty⟩ | ⟨hsome, more, hmore⟩
    · exact iff_of_false (by simp [hempty]) fun ⟨r, hr, hgenerated⟩ => hnone r hr hgenerated
    · refine iff_of_true (fun hempty => ?_) hsome
      rw [hempty] at hmore
      exact absurd hmore (by simp)
  · rw [if_neg heslint]
    exact iff_of_true rfl fun h => absurd h heslint

/-- With notices in front, a listing is no JSON text. -/
theorem parse?_notices_append {all : List FolderRules} {format : ListingFormat}
    (h : notices all format ≠ "") (text : String) :
    Json.parse? (notices all format ++ text) = none := by
  unfold notices at h ⊢
  split at h
  · rename_i heslint
    rw [if_pos heslint]
    rcases FlatConfig.warnings_cases all with ⟨-, hempty⟩ | ⟨-, more, hmore⟩
    · exact absurd hempty h
    · refine Json.parse?_eq_none (?_ : _ = 'W' :: (more ++ text.toList))
      rw [String.toList_append, hmore, List.cons_append]
  · exact absurd rfl h

end Listing

namespace Command

/-- **The two ways of a listing.** What goes to the standard output is what goes to the output
file, with the notices in front of it. So both are the same exactly when there is no notice, which
is unless the flat linter configuration is asked for and an override has the name of the generated
rule; with notices in front, what is printed is no JSON text. The files are any tree of files and
directories, without links, permissions and special files. -/
theorem printed_eq_written_iff {config : Option String} {format : ListingFormat}
    (hload : ((load config : Sandbox _).run w).1 = .ok c)
    (hwrite : ((Invocation.run config (.rules format (some path))).perform : Sandbox _).run w =
      (⟨0, none⟩, w')) :
    ∃ printed written,
      ((Invocation.run config (.rules format none)).perform : Sandbox _).run w =
        (⟨0, none⟩, w.print printed) ∧
      w'.readText path = .ok written ∧
      (format ≠ .text → ∃ j : Json, written = j.pretty ++ "\n") ∧
      printed = Listing.notices c.folderRules format ++ written ∧
      (printed = written ↔ (format = .eslint →
        ∀ entry ∈ c.overrides, restrictedImports ∉ Members.keys entry.2)) ∧
      (printed ≠ written → Json.parse? printed = none) := by
  obtain ⟨raw, hraw⟩ := exists_validate_of_load hload
  obtain ⟨members, -, hc⟩ := Config.validate_eq_ok_iff.mp hraw
  refine ⟨_, _, run_printed hload, readText_written hload hwrite, ?_, rfl, ?_, ?_⟩
  · intro htext
    obtain ⟨j, hj⟩ := Listing.exists_render_eq_pretty c.folderRules htext
    exact ⟨j, by rw [hj]⟩
  · rw [String.append_eq_right_iff, Listing.notices_eq_empty_iff hc]
  · intro hne
    exact Listing.parse?_notices_append (fun h => hne (String.append_eq_right_iff.mpr h)) _

/-- A directory with a configuration and nothing else. -/
def projectOf (text : String) : World where
  tree := ⟨[([ConfigSource.jsonName], .file text.toUTF8)]⟩
  cwd := []
  programs := fun _ => none
  output := ""

/-- The text of a configuration that overrides one linter rule. -/
def overriding (rule : String) : String :=
  "\x7b\"appAlias\":\"@\",\"dependencyFlow\":[[\"a\",\"b\"]],\"lintFiles\":\"\x7bfolder\x7d\"," ++
    "\"overrideRules\":\x7b\"a\":\x7b\"" ++ rule ++ "\":\"off\"\x7d\x7d\x7d"

/-- What `overriding` describes. -/
def overridden (rule : String) : Config where
  appAlias := "@"
  flow := ⟨[⟨"a", "b", {}⟩]⟩
  docs := none
  lintFiles := ["\x7bfolder\x7d"]
  moduleLayout := .folder
  overrides := [("a", [(rule, .string "off")])]
  packageRules := []

set_option maxRecDepth 4096 in
theorem load_overriding_other :
    ((load none : Sandbox _).run (projectOf (overriding "no-eval"))).1 =
      .ok (overridden "no-eval") := by
  rfl

set_option maxRecDepth 4096 in
theorem load_overriding_restricted :
    ((load none : Sandbox _).run (projectOf (overriding restrictedImports))).1 =
      .ok (overridden restrictedImports) := by
  rfl

/-- Beside the configuration there is room for the listing. -/
theorem exists_perform_projectOf {text : String} (format : ListingFormat)
    (hload : ((load none : Sandbox _).run (projectOf text)).1 = .ok c) :
    ∃ w', ((Invocation.run none (.rules format (some "out.json"))).perform : Sandbox _).run
      (projectOf text) = (⟨0, none⟩, w') := by
  obtain ⟨w', hdeliver⟩ : ∃ w',
      (deliver (Listing.render c.folderRules format) (some "out.json") : Sandbox _).run
        ((projectOf text).print (Listing.notices c.folderRules format)) = (.ok (), w') := ⟨_, rfl⟩
  exact ⟨w', Invocation.run_perform.mpr ((run_rules hload).trans hdeliver)⟩

/-- The listing with an override of another rule comes out alike in both ways. -/
theorem other_override_printed_alike :
    ((load none : Sandbox _).run (projectOf (overriding "no-eval"))).1 =
      .ok (overridden "no-eval") ∧
    ∃ written w',
      ((Invocation.run none (.rules .eslint (some "out.json"))).perform : Sandbox _).run
        (projectOf (overriding "no-eval")) = (⟨0, none⟩, w') ∧
      w'.readText "out.json" = .ok written ∧
      ((Invocation.run none (.rules .eslint none)).perform : Sandbox _).run
        (projectOf (overriding "no-eval")) =
          (⟨0, none⟩, (projectOf (overriding "no-eval")).print written) := by
  obtain ⟨w', hwrite⟩ := exists_perform_projectOf .eslint load_overriding_other
  obtain ⟨printed, written, hprint, hread, -, -, halike, -⟩ :=
    printed_eq_written_iff load_overriding_other hwrite
  obtain rfl := halike.mpr fun _ => by decide
  exact ⟨load_overriding_other, printed, w', hwrite, hread, hprint⟩

/-- An override of the generated rule puts a warning before the listing that is printed. -/
theorem restricted_override_printed_apart :
    ((load none : Sandbox _).run (projectOf (overriding restrictedImports))).1 =
      .ok (overridden restrictedImports) ∧
    ∃ printed written w',
      ((Invocation.run none (.rules .eslint (some "out.json"))).perform : Sandbox _).run
        (projectOf (overriding restrictedImports)) = (⟨0, none⟩, w') ∧
      w'.readText "out.json" = .ok written ∧
      ((Invocation.run none (.rules .eslint none)).perform : Sandbox _).run
        (projectOf (overriding restrictedImports)) =
          (⟨0, none⟩, (projectOf (overriding restrictedImports)).print printed) ∧
      printed ≠ written ∧ Json.parse? printed = none := by
  obtain ⟨w', hwrite⟩ := exists_perform_projectOf .eslint load_overriding_restricted
  have hnotices : Listing.notices (overridden restrictedImports).folderRules .eslint ≠ "" := by
    decide
  exact ⟨load_overriding_restricted, _, _, w', hwrite,
    readText_written load_overriding_restricted hwrite, run_printed load_overriding_restricted,
    fun h => hnotices (String.append_eq_right_iff.mp h), Listing.parse?_notices_append hnotices _⟩

end Command

end FolderFlow
