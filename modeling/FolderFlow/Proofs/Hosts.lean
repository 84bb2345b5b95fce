import FolderFlow.CommandLine.Run

/-!
# Programs on two hosts

Programs are written for any host. So a relation between computations of two hosts relates whole
programs as soon as it relates their calls and is kept when computations are put together
(`Host.Relates.perform`). Where it relates only some of the calls, it relates what is made of those:
loading only looks at files (`Host.RelatesLooks.load`). A property of computations on a single host
is such a relation as well.
-/

namespace FolderFlow

/-- Relations between computations of two hosts. -/
abbrev HostRel (m n : Type → Type) :=
  ∀ α : Type, m α → n α → Prop

namespace Host

variable {m n : Type → Type} [Monad m] [Host m] [Monad n] [Host n] {R : HostRel m n}

/-! ## Relations that composition keeps -/

structure RelatesSteps (R : HostRel m n) : Prop where
  pure : ∀ {α : Type} (a : α), R α (pure a) (pure a)
  bind : ∀ {α β : Type} {x : m α} {y : n α} {f : α → m β} {g : α → n β},
    R α x y → (∀ a, R β (f a) (g a)) → R β (x >>= f) (y >>= g)

/-- Looking at files is related. -/
structure RelatesLooks (R : HostRel m n) : Prop extends RelatesSteps R where
  readText : ∀ path, R _ (Host.readText path) (Host.readText path)
  pathExists : ∀ path, R _ (Host.pathExists path) (Host.pathExists path)

/-- Printing is related. -/
structure RelatesPrints (R : HostRel m n) : Prop extends RelatesSteps R where
  print : ∀ text, R _ (Host.print text) (Host.print text)

/-- All calls are related. -/
structure Relates (R : HostRel m n) : Prop extends RelatesLooks R, RelatesPrints R where
  writeText : ∀ path text, R _ (Host.writeText path text) (Host.writeText path text)
  createDirs : ∀ path, R _ (Host.createDirs path) (Host.createDirs path)
  realPath : ∀ path, R _ (Host.realPath path) (Host.realPath path)
  launch : ∀ command, R _ (Host.launch command) (Host.launch command)

/-! ## Loading -/

namespace RelatesLooks

theorem firstOf (h : RelatesLooks R) (paths : List String) :
    R _ (ConfigSource.firstOf paths) (ConfigSource.firstOf paths) := by
  induction paths with
  | nil => exact h.pure _
  | cons path paths ih =>
    refine h.bind (h.pathExists path) fun found => ?_
    cases found with
    | true => exact h.pure _
    | false => exact ih

theorem resolve (h : RelatesLooks R) (dir : String) (named : Option String) :
    R _ (ConfigSource.resolve dir named) (ConfigSource.resolve dir named) := by
  cases named with
  | none => exact h.firstOf _
  | some path => exact h.pure _

theorem loadFile (h : RelatesLooks R) (path : String) :
    R _ (Config.loadFile path) (Config.loadFile path) := by
  refine h.bind (h.readText path) fun found => ?_
  rcases found with e | text
  · cases e <;> exact h.pure _
  · exact h.pure _

theorem loadProject (h : RelatesLooks R) (dir : String) (named : Option String) :
    R _ (Config.loadProject dir named) (Config.loadProject dir named) := by
  refine h.bind (h.resolve dir named) fun source => ?_
  cases source.path? with
  | none => exact h.pure _
  | some path =>
    refine h.bind (h.loadFile path) fun found => ?_
    rcases found with e | c
    · cases e <;> exact h.pure _
    · exact h.pure _

theorem load (h : RelatesLooks R) (config : Option String) :
    R _ (Command.load config) (Command.load config) :=
  h.bind (h.loadProject Command.projectDir config) fun _ => h.pure _

theorem get (h : RelatesLooks R) (cache : DirCache) (key : String) :
    R _ (cache.get key) (cache.get key) := by
  refine h.bind (h.readText _) fun read => ?_
  cases read with
  | error e => exact h.pure _
  | ok text => exact h.pure _

end RelatesLooks

/-! ## Printing -/

namespace RelatesPrints

theorem printLines (h : RelatesPrints R) (lines : List String) :
    R _ (Command.printLines lines) (Command.printLines lines) := by
  induction lines with
  | nil => exact h.pure _
  | cons line lines ih => exact h.bind (h.print _) fun _ => ih

theorem warnOverrides (h : RelatesPrints R) (all : List FolderRules) :
    R _ (Command.warnOverrides all) (Command.warnOverrides all) := by
  induction all with
  | nil => exact h.pure _
  | cons r rs ih =>
    unfold Command.warnOverrides
    split
    · exact h.bind (h.print _) fun _ => ih
    · exact ih

theorem runCheck (h : RelatesPrints R) (c : Config) :
    R _ (Command.runCheck c) (Command.runCheck c) :=
  h.bind (h.print _) fun _ => h.printLines _

end RelatesPrints

/-! ## Whole programs -/

namespace Relates

/-! ### Patches -/

theorem put (h : Relates R) (cache : DirCache) (key value : String) :
    R _ (cache.put key value) (cache.put key value) := by
  refine h.bind (h.createDirs _) fun made => ?_
  cases made with
  | error e => exact h.pure _
  | ok => exact h.writeText _ _

theorem recordHash (h : Relates R) (cache : DirCache) (hash : String) :
    R _ (cache.record hash) (cache.record hash) := by
  refine h.bind (h.get cache DirCache.hashKey) fun held => ?_
  split
  · exact h.pure _
  · refine h.bind (h.put cache DirCache.hashKey hash) fun put => ?_
    cases put with
    | error e => exact h.bind (h.print _) fun _ => h.pure _
    | ok => exact h.pure _

theorem update (h : Relates R) (path current text : String) :
    R _ (DocsPatcher.update path current text) (DocsPatcher.update path current text) := by
  unfold DocsPatcher.update
  split
  · exact h.pure _
  · refine h.bind (h.writeText path text) fun written => ?_
    cases written with
    | error e => exact h.pure _
    | ok => exact h.bind (h.print _) fun _ => h.pure _

variable {ε : Type} (p : DocsPatcher ε)

theorem format (h : Relates R) (path : String) : R _ (p.format path) (p.format path) := by
  unfold DocsPatcher.format
  split
  · exact h.pure _
  · refine h.bind (h.realPath path) fun target => h.bind ?_ fun ended => ?_
    · exact h.bind (h.launch _) fun _ => h.pure _
    · cases ended with
      | error e => exact h.bind (h.print _) fun _ => h.pure _
      | ok => exact h.pure _

theorem record (h : Relates R) (hash : String) : R _ (p.record hash) (p.record hash) := by
  unfold DocsPatcher.record
  split
  · exact h.pure _
  · exact h.recordHash _ hash

theorem conclude (h : Relates R) (flow : Flow) (path : String) (written : Bool) :
    R _ (p.conclude flow path written) (p.conclude flow path written) := by
  have hrecord (formatted : Bool) := h.bind (h.record p flow.hash) fun status =>
    h.pure (⟨path, written, formatted, flow.hash, status⟩ : PatchReport)
  cases written with
  | false => exact h.bind (h.pure false) hrecord
  | true => exact h.bind (h.format p path) hrecord

theorem patch (h : Relates R) (flow : Flow) (docs : DocsOptions) :
    R _ (p.patch flow docs) (p.patch flow docs) := by
  unfold DocsPatcher.patch
  cases p.compile docs.markerTag with
  | error complaint => exact h.pure _
  | ok =>
    refine h.bind (h.readText _) fun read => ?_
    cases read with
    | error e => exact h.pure _
    | ok current =>
      dsimp only
      cases Docs.patched flow docs current with
      | error fault => exact h.pure _
      | ok text =>
        refine h.bind (h.update _ current text) fun updated => ?_
        cases updated with
        | error e => exact h.pure _
        | ok written => exact h.bind (h.conclude p flow _ written) fun _ => h.pure _

/-! ### Commands -/

theorem deliver (h : Relates R) (rendered : String) (output : Option String) :
    R _ (Command.deliver rendered output) (Command.deliver rendered output) := by
  cases output with
  | none => exact h.bind (h.print _) fun _ => h.pure _
  | some path =>
    refine h.bind (h.writeText path _) fun written => ?_
    cases written with
    | error e => exact h.pure _
    | ok => exact h.bind (h.print _) fun _ => h.pure _

theorem runRules (h : Relates R) (c : Config) (format : ListingFormat) (output : Option String) :
    R _ (Command.runRules c format output) (Command.runRules c format output) := by
  have hlisting := h.deliver (Listing.render c.folderRules format) output
  -- only the flat linter configuration is told of overrides
  cases format with
  | text => exact hlisting
  | json => exact hlisting
  | eslint => exact h.bind (h.warnOverrides _) fun _ => hlisting

theorem runDocs (h : Relates R) (c : Config) (format : Bool) (cacheDir : Option String) :
    R _ (Command.runDocs c format cacheDir) (Command.runDocs c format cacheDir) := by
  unfold Command.runDocs
  split
  · exact h.bind (h.print _) fun _ => h.pure _
  · refine h.bind (h.patch _ c.flow _) fun patched => ?_
    cases patched with
    | error e => exact h.pure _
    | ok report => exact h.bind (h.print _) fun _ => h.pure _

theorem runInit (h : Relates R) (force : Bool) :
    R _ (Command.runInit force) (Command.runInit force) := by
  refine h.bind (h.pathExists _) fun found => ?_
  split
  · exact h.pure _
  · refine h.bind (h.writeText _ _) fun written => ?_
    cases written with
    | error e => exact h.pure _
    | ok => exact h.bind (h.printLines _) fun _ => h.pure _

theorem run (h : Relates R) (config : Option String) (command : Command) :
    R _ (command.run config) (command.run config) := by
  cases command with
  | init force => exact h.runInit force
  | check =>
    refine h.bind (h.load config) fun loaded => ?_
    cases loaded with
    | error e => exact h.pure _
    | ok c => exact h.bind (h.runCheck c) fun _ => h.pure _
  | rules format output =>
    refine h.bind (h.load config) fun loaded => ?_
    cases loaded with
    | error e => exact h.pure _
    | ok c => exact h.runRules c format output
  | docs format cacheDir =>
    refine h.bind (h.load config) fun loaded => ?_
    cases loaded with
    | error e => exact h.pure _
    | ok c => exact h.runDocs c format cacheDir

/-- **Programs treat all hosts alike.** Where the calls of two hosts are related, so is what an
invocation does on the one to what it does on the other. -/
theorem perform (h : Relates R) (i : Invocation) : R _ i.perform i.perform := by
  cases i with
  | run config command =>
    refine h.bind (h.run config command) fun result => ?_
    cases result with
    | error e => exact h.pure _
    | ok => exact h.pure _
  | help => exact h.bind (h.printLines _) fun _ => h.pure _
  | version => exact h.bind (h.print _) fun _ => h.pure _
  | usageError => exact h.pure _

end Relates

end Host

end FolderFlow
