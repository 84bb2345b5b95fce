import FolderFlow.Config.Validate
import FolderFlow.Docs.Patch
import FolderFlow.Proofs.Cache
import FolderFlow.Proofs.Region

/-!
# Patching again

A patch without a formatter is followed by the same patch any number of times. The later ones find
nothing to write exactly when no end marker begins in the text that was put between the markers
(`DocsPatcher.patch_settles_iff`). An end marker that begins there ends the region too early when
the docs file is read again: what stands behind it is then outside the region and is kept, while the
whole text is put in once more.
-/

namespace FolderFlow

open FileTree (destination)

/-! ## The hash -/

theorem Text.trim_of_noWhite {s : String} (h : ∀ c ∈ s.toList, Text.isWhiteSpace c = false) :
    Text.trim s = s := by
  have hdrop : ∀ cs : List Char, (∀ c ∈ cs, Text.isWhiteSpace c = false) →
      cs.dropWhile Text.isWhiteSpace = cs := by
    intro cs hcs
    cases cs with
    | nil => rfl
    | cons c cs => rw [List.dropWhile_cons, hcs c List.mem_cons_self, if_neg (by simp)]
  unfold Text.trim Text.trimEnd Text.trimStart
  rw [hdrop _ h, hdrop _ (by simpa using h), List.reverse_reverse, String.ofList_toList]

theorem Sha256.isWhiteSpace_hexDigit (n : UInt32) :
    Text.isWhiteSpace (Sha256.hexDigit n) = false := by
  have hdigits : ∀ k < 16, Text.isWhiteSpace (Nat.digitChar k) = false := by decide
  refine hdigits _ ?_
  rw [UInt32.toNat_mod]
  exact Nat.mod_lt _ (by decide)

theorem Flow.trim_hash (flow : Flow) : Text.trim flow.hash = flow.hash := by
  refine Text.trim_of_noWhite fun c hc => ?_
  simp only [Flow.hash, String.toList_ofList, Sha256.State.hex, List.mem_flatMap] at hc
  obtain ⟨word, -, hc⟩ := hc
  simp only [Sha256.hexWord, List.mem_cons, List.not_mem_nil, or_false] at hc
  rcases hc with rfl | rfl | rfl | rfl | rfl | rfl | rfl | rfl <;>
    exact Sha256.isWhiteSpace_hexDigit _

/-! ## The text -/

theorem Docs.patched_eq_ok_iff {flow : Flow} {docs : DocsOptions} {text patched : String} :
    Docs.patched flow docs text = .ok patched ↔
      ∃ region, Region.locate docs.markerTag text.toList = .ok region ∧
        patched = String.ofList (region.fill (Docs.body flow docs).toList) := by
  simp only [Docs.patched, splice, bind_eq_ok_iff]
  refine exists_congr fun region => and_congr_right fun _ => ?_
  exact ⟨fun h => (Except.ok.inj h).symm, fun h => congrArg Except.ok h.symm⟩

/-- A patched text is not changed by the same patch when no end marker begins in what was put into
it. -/
theorem Docs.patched_self_iff {flow : Flow} {docs : DocsOptions} {text : List Char} {r : Region}
    (h : Region.locate docs.markerTag text = .ok r) {patched : String}
    (hpatched : patched = String.ofList (r.fill (Docs.body flow docs).toList)) :
    Docs.patched flow docs patched = .ok patched ↔
      ¬ Marker.BeginsIn .closing docs.markerTag.toList (Docs.body flow docs).toList
        ('\n' :: r.tail) := by
  obtain ⟨r', hlocate, hfill⟩ := Region.exists_locate_fill h (Docs.body flow docs).toList
  rw [← hfill, Docs.patched_eq_ok_iff, hpatched, String.toList_ofList]
  constructor
  · rintro ⟨r'', hlocate', hsame⟩
    obtain rfl := Except.ok.inj (hlocate.symm.trans hlocate')
    exact (String.ofList_injective hsame).symm
  · intro hsame
    exact ⟨r', hlocate, by rw [hsame]⟩

namespace DocsPatcher

variable {ε : Type} {p : DocsPatcher ε} {flow : Flow} {docs : DocsOptions} {w w' : World}
  {report : PatchReport} {path current patched : String} {written : Bool}

/-- The path of the docs file. -/
def docsPath (p : DocsPatcher ε) (docs : DocsOptions) : String :=
  Path.join p.root docs.file

/-! ## One patch -/

theorem run_update_self (path current : String) (w : World) :
    (update path current current : Sandbox _).run w = (.ok false, w) := by
  rw [update, if_pos rfl]
  rfl

theorem touches_update (hread : w.readText path = .ok current)
    (h : (update path current patched : Sandbox _).run w = (.ok written, w')) :
    World.Touches (destination w.cwd path) w w' ∧ w'.readText path = .ok patched ∧
      (written = false → patched = current) := by
  unfold update at h
  split at h
  · rename_i hsame
    obtain ⟨-, rfl⟩ := Prod.mk.inj h
    exact ⟨World.Touches.refl _ w, hsame ▸ hread, fun _ => hsame⟩
  · simp only [run_bind, run_writeText] at h
    generalize hwrite : w.writeText path patched = outcome at h
    obtain ⟨result, between⟩ := outcome
    cases result with
    | error e => exact absurd (Prod.mk.inj h).1 (by simp)
    | ok =>
      obtain ⟨htouches, hread⟩ := World.touches_writeText hwrite
      simp only [run_bind, run_log, run_pure] at h
      obtain ⟨hwritten, rfl⟩ := Prod.mk.inj h
      refine ⟨htouches.trans (World.touches_print _ _ _), hread, ?_⟩
      rintro rfl
      exact absurd hwritten (by simp)

theorem run_conclude (hformat : p.formatter = none ∨ written = false) :
    (p.conclude flow path written : Sandbox _).run w =
      ({ path, written, formatted := false, hash := flow.hash,
         cache := ((p.record flow.hash : Sandbox _).run w).1 },
        ((p.record flow.hash : Sandbox _).run w).2) := by
  unfold conclude
  rcases hformat with hformat | rfl
  · cases written with
    | false => rfl
    | true => simp only [run_bind, format, hformat, if_true, run_pure]
  · rfl

theorem compile_of_patch (h : (p.patch flow docs : Sandbox _).run w = (.ok report, w')) :
    p.compile docs.markerTag = .ok () := by
  unfold patch at h
  cases hcompile : p.compile docs.markerTag with
  | error complaint =>
    rw [hcompile] at h
    exact absurd (Prod.mk.inj h).1 (by simp)
  | ok => rfl

/-- A patch that succeeds reads the docs file, brings it up to date and records the hash. -/
theorem patch_eq_ok (hformatter : p.formatter = none)
    (h : (p.patch flow docs : Sandbox _).run w = (.ok report, w')) :
    ∃ current patched between, w.readText (p.docsPath docs) = .ok current ∧
      Docs.patched flow docs current = .ok patched ∧
      (update (p.docsPath docs) current patched : Sandbox _).run w = (.ok report.written, between) ∧
      report.hash = flow.hash ∧
      (p.record flow.hash : Sandbox _).run between = (report.cache, w') := by
  have hcompile := compile_of_patch h
  simp only [patch, hcompile, run_bind, run_readText] at h
  cases hread : w.readText (Path.join p.root docs.file) with
  | error e =>
    rw [hread] at h
    exact absurd (Prod.mk.inj h).1 (by simp)
  | ok current =>
    cases hpatched : Docs.patched flow docs current with
    | error e =>
      simp only [hread, hpatched] at h
      exact absurd (Prod.mk.inj h).1 (by simp)
    | ok patched =>
      simp only [hread, hpatched, run_bind] at h
      generalize hupdate : (update (Path.join p.root docs.file) current patched : Sandbox _).run w =
        outcome at h
      obtain ⟨result, between⟩ := outcome
      cases result with
      | error e => exact absurd (Prod.mk.inj h).1 (by simp)
      | ok written =>
        simp only [run_bind, run_conclude (Or.inl hformatter), run_pure] at h
        obtain ⟨hreport, rfl⟩ := Prod.mk.inj h
        obtain rfl := Except.ok.inj hreport
        exact ⟨current, patched, between, hread, hpatched, hupdate, rfl, rfl⟩

/-! ## The cache -/

/-- The hash is not kept in the docs file. -/
def KeepsApart (p : DocsPatcher ε) (docs : DocsOptions) (cwd : Location) : Prop :=
  ∀ cache, p.cache = some cache →
    cache.entryLocation cwd DirCache.hashKey ≠ destination cwd (p.docsPath docs)

/-- The cache, if there is one, holds a hash. -/
def Holds (p : DocsPatcher ε) (w : World) (hash : String) : Prop :=
  ∀ cache, p.cache = some cache → cache.held w DirCache.hashKey = some hash

theorem run_record_of_holds {hash : String} (h : p.Holds w hash) :
    (p.record hash : Sandbox _).run w =
      (if p.cache.isSome then .unchanged else .disabled, w) := by
  unfold record
  cases hcache : p.cache with
  | none => rfl
  | some cache => exact DirCache.run_record_of_held (h cache hcache)

theorem holds_of_record {hash : String} {status : CacheStatus}
    (h : (p.record hash : Sandbox _).run w = (status, w')) (hstatus : status ≠ .writeFailed)
    (htrim : Text.trim hash = hash) : p.Holds w' hash := by
  intro cache hcache
  simp only [record, hcache] at h
  exact (DirCache.touches_record h).2 hstatus htrim

theorem readText_of_record {hash text : String} {status : CacheStatus}
    (hapart : p.KeepsApart docs w.cwd) (h : (p.record hash : Sandbox _).run w = (status, w'))
    (hread : w.readText (p.docsPath docs) = .ok text) :
    w'.readText (p.docsPath docs) = .ok text := by
  unfold record at h
  cases hcache : p.cache with
  | none =>
    rw [hcache] at h
    obtain ⟨-, rfl⟩ := Prod.mk.inj h
    exact hread
  | some cache =>
    simp only [hcache] at h
    exact (DirCache.touches_record h).1.readText (hapart cache hcache).symm hread

/-! ## The same patch again -/

/-- There is nothing left to do: the docs file holds `text`, which is up to date, and the cache
holds the hash. -/
structure Settled (p : DocsPatcher ε) (flow : Flow) (docs : DocsOptions) (text : String)
    (w : World) : Prop where
  compile : p.compile docs.markerTag = .ok ()
  read : w.readText (p.docsPath docs) = .ok text
  patched : Docs.patched flow docs text = .ok text
  holds : p.Holds w flow.hash

theorem run_patch_of_settled {text : String} (h : p.Settled flow docs text w) :
    (p.patch flow docs : Sandbox _).run w =
      (.ok { path := p.docsPath docs, written := false, formatted := false, hash := flow.hash,
             cache := if p.cache.isSome then .unchanged else .disabled }, w) := by
  have hread : w.readText (Path.join p.root docs.file) = .ok text := h.read
  simp only [patch, h.compile, run_bind, run_readText, hread, h.patched, run_update_self,
    run_conclude (Or.inr rfl), run_record_of_holds h.holds, run_pure]
  rfl

/-- The world after a patch has run `n` times. -/
def worldAfter (p : DocsPatcher ε) (flow : Flow) (docs : DocsOptions) (w : World) : Nat → World
  | 0 => w
  | n + 1 => ((p.patch flow docs : Sandbox _).run (worldAfter p flow docs w n)).2

/-- However often the patch runs, it succeeds, writes nothing, reports the hash, finds the cache
unchanged and leaves the docs file as it was. -/
def Settles (p : DocsPatcher ε) (flow : Flow) (docs : DocsOptions) (hash : String)
    (w : World) : Prop :=
  ∀ n, ∃ again,
    ((p.patch flow docs : Sandbox _).run (p.worldAfter flow docs w n)).1 = .ok again ∧
      again.written = false ∧ again.hash = hash ∧ (p.cache.isSome → again.cache = .unchanged) ∧
        (p.worldAfter flow docs w (n + 1)).readText (p.docsPath docs) =
          w.readText (p.docsPath docs)

theorem worldAfter_of_settled {text : String} (h : p.Settled flow docs text w) (n : Nat) :
    p.worldAfter flow docs w n = w := by
  induction n with
  | zero => rfl
  | succ n ih => rw [worldAfter, ih, run_patch_of_settled h]

theorem settles_of_settled {text : String} (h : p.Settled flow docs text w) :
    p.Settles flow docs flow.hash w := by
  intro n
  rw [worldAfter_of_settled h, worldAfter_of_settled h, run_patch_of_settled h]
  exact ⟨_, rfl, rfl, rfl, fun hcache => if_pos hcache, rfl⟩

/-- A patch that writes nothing found its text in the docs file. -/
theorem patched_of_settles {text hash : String} (hformatter : p.formatter = none)
    (hread : w.readText (p.docsPath docs) = .ok text) (h : p.Settles flow docs hash w) :
    Docs.patched flow docs text = .ok text := by
  obtain ⟨again, hrun, hwritten, -⟩ := h 0
  obtain ⟨current, patched, between, hread', hpatched, hupdate, -⟩ :=
    patch_eq_ok hformatter (Prod.ext hrun rfl)
  obtain rfl := Except.ok.inj (hread.symm.trans hread')
  rwa [(touches_update hread' hupdate).2.2 hwritten] at hpatched

/-- **Patching again.** After a patch that succeeded, the same patch finds nothing to do any number
of times exactly when no end marker begins in the text that was put between the markers. The files
are any tree of files and directories, without links, permissions and special files. -/
theorem patch_settles_iff (hformatter : p.formatter = none) (hapart : p.KeepsApart docs w.cwd)
    (hpatch : (p.patch flow docs : Sandbox _).run w = (.ok report, w'))
    (hcache : report.cache ≠ .writeFailed) :
    ∃ text region, w.readText (p.docsPath docs) = .ok text ∧
      Region.locate docs.markerTag text.toList = .ok region ∧
      w'.readText (p.docsPath docs) =
        .ok (String.ofList (region.fill (Docs.body flow docs).toList)) ∧
      (p.Settles flow docs report.hash w' ↔
        ¬ Marker.BeginsIn .closing docs.markerTag.toList (Docs.body flow docs).toList
          ('\n' :: region.tail)) := by
  obtain ⟨text, patched, between, hread, hpatched, hupdate, hhash, hrecord⟩ :=
    patch_eq_ok hformatter hpatch
  obtain ⟨region, hlocate, hfill⟩ := Docs.patched_eq_ok_iff.mp hpatched
  obtain ⟨htouches, hread', -⟩ := touches_update hread hupdate
  have hread'' : w'.readText (p.docsPath docs) = .ok patched :=
    readText_of_record (htouches.cwd ▸ hapart) hrecord hread'
  refine ⟨text, region, hread, hlocate, hfill ▸ hread'', ?_⟩
  rw [← Docs.patched_self_iff hlocate hfill, hhash]
  refine ⟨patched_of_settles hformatter hread'', fun hself => ?_⟩
  exact settles_of_settled
    ⟨compile_of_patch hpatch, hread'', hself, holds_of_record hrecord hcache flow.trim_hash⟩

/-! ## An end marker in the content -/

def notedDocs (content : String) : DocsOptions where
  file := "R.md"
  markerTag := "T"
  content := some content

def noted (content : String) : Config where
  appAlias := "@"
  flow := ⟨[{ source := "a", target := "b" }]⟩
  docs := some (notedDocs content)
  lintFiles := ["src/\x7bfolder\x7d/**"]
  moduleLayout := .folder
  overrides := []
  packageRules := []

/-- A directory with a docs file that holds the markers and nothing else. -/
def markersOnly : World where
  tree := ⟨[(["R.md"], .file "<!--T:START--><!--T:END-->".toUTF8)]⟩
  cwd := []
  programs := fun _ => none
  output := ""

/-- A patcher without a cache and a formatter. -/
def plainPatcher : DocsPatcher where
  root := "."

/-- A patcher that keeps the hash beside the docs file. -/
def inPlace : DocsPatcher where
  root := "."
  cache := some ⟨""⟩

theorem keepsApart_inPlace : inPlace.KeepsApart (notedDocs "See above.") markersOnly.cwd := by
  intro cache hcache
  obtain rfl := Option.some.inj hcache
  decide

theorem harmless_content_settles :
    inPlace.formatter = none ∧ inPlace.KeepsApart (notedDocs "See above.") markersOnly.cwd ∧
    ∃ report w', report.cache ≠ .writeFailed ∧
      (inPlace.patch (noted "See above.").flow (notedDocs "See above.") : Sandbox _).run
        markersOnly = (.ok report, w') ∧
      inPlace.Settles (noted "See above.").flow (notedDocs "See above.") report.hash w' := by
  refine ⟨rfl, keepsApart_inPlace, ?_⟩
  have hrun : ((inPlace.patch (noted "See above.").flow (notedDocs "See above.") : Sandbox _).run
      markersOnly).1 = .ok ⟨"./R.md", true, false, (noted "See above.").flow.hash, .updated⟩ := rfl
  obtain ⟨-, region, -, -, -, hiff⟩ :=
    patch_settles_iff rfl keepsApart_inPlace (Prod.ext hrun rfl) (by simp)
  have hbody : '<' ∉ (Docs.body (noted "See above.").flow (notedDocs "See above.")).toList := by
    decide
  exact ⟨_, _, by simp, Prod.ext hrun rfl, hiff.mpr fun hin => hbody (Marker.mem_of_beginsIn hin)⟩

theorem validate_noted :
    Config.validate (noted "<!--T:END-->").toJson = .ok (noted "<!--T:END-->") := by
  rfl

/-- With an end marker for its content, the second patch writes the docs file again. -/
theorem end_marker_written_again :
    Config.validate (noted "<!--T:END-->").toJson = .ok (noted "<!--T:END-->") ∧
    ∃ report w' again w'',
      (plainPatcher.patch (noted "<!--T:END-->").flow (notedDocs "<!--T:END-->") :
        Sandbox _).run markersOnly = (.ok report, w') ∧
      (plainPatcher.patch (noted "<!--T:END-->").flow (notedDocs "<!--T:END-->") :
        Sandbox _).run w' = (.ok again, w'') ∧ again.written = true := by
  refine ⟨validate_noted, ⟨"./R.md", true, false, (noted "<!--T:END-->").flow.hash, .disabled⟩, _,
    ⟨"./R.md", true, false, (noted "<!--T:END-->").flow.hash, .disabled⟩, _, Prod.ext ?_ rfl,
    Prod.ext ?_ rfl, rfl⟩
  · rfl
  · rfl

end DocsPatcher

end FolderFlow
