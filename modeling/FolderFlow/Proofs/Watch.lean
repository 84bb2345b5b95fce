import FolderFlow.Proofs.Cache

/-!
# Watched worlds

A world that writes down what it is asked and what it answers, and that may refuse any call: a file
may be locked, a disk full, a program not to be started. A refused call changes nothing, except that
directories may have been made up to some point. Since commands are written for any host, what is
said of a command on a watched world speaks of its calls as well as of the files.
-/

namespace FolderFlow

/-- What a command may ask of its host. -/
inductive Call where
  | readText (path : String)
  | writeText (path text : String)
  | createDirs (path : String)
  | pathExists (path : String)
  | realPath (path : String)
  | launch (command : Launch)
  | print (text : String)

/-- Why a call is refused and, when directories are to be made, how many at the end of the path are
not made. -/
structure Refusal where
  cause : SystemError
  missing : Nat

namespace Call

abbrev Answer : Call → Type
  | readText _ => Except SystemError String
  | writeText _ _ => Except SystemError Unit
  | createDirs _ => Except SystemError Unit
  | pathExists _ => Bool
  | realPath _ => Except SystemError String
  | launch _ => Except SystemError Exit
  | print _ => Unit

/-- What a world makes of a call. -/
def perform : (call : Call) → World → call.Answer × World
  | readText path, w => (w.readText path, w)
  | writeText path text, w => w.writeText path text
  | createDirs path, w => w.createDirs path
  | pathExists path, w => (w.pathExists path, w)
  | realPath path, w => (w.realPath path, w)
  | launch command, w => w.launch command
  | print text, w => ((), w.print text)

/-- A call changes the files and the output, and nothing else. -/
theorem perform_rest (call : Call) (w : World) : (call.perform w).2 =
    { w with tree := (call.perform w).2.tree, output := (call.perform w).2.output } := by
  cases call with
  | writeText path text =>
    simp only [perform, World.writeText]
    split <;> rfl
  | launch command =>
    simp only [perform, World.launch]
    split <;> rfl
  | _ => rfl

/-- What a call leaves behind that is refused: nothing, unless it has made directories before. -/
def interrupted : Call → Refusal → World → World
  | createDirs path, r, w =>
    let steps := (Path.steps path).drop r.missing
    { w with tree := (w.tree.makeDirs (FileTree.startOf w.cwd path) steps).1 }
  | _, _, w => w

theorem interrupted_rest (call : Call) (r : Refusal) (w : World) :
    call.interrupted r w = { w with tree := (call.interrupted r w).tree } := by
  cases call <;> rfl

/-- The answer to a call that is refused. A text that cannot be printed is lost. -/
def refused : (call : Call) → SystemError → call.Answer
  | readText _, e => .error e
  | writeText _ _, e => .error e
  | createDirs _, e => .error e
  | pathExists _, _ => false
  | realPath _, e => .error e
  | launch _, e => .error e
  | print _, _ => ()

end Call

/-- A call and its answer. -/
structure Event where
  call : Call
  answer : call.Answer

/-- The end of the program that was started, if one was. -/
def Event.exit? : Event → Option Exit
  | ⟨.launch _, .ok exit⟩ => some exit
  | _ => none

structure Watched where
  world : World
  /-- What is refused, which may depend on all that happened before. -/
  refuses : List Event → Call → Option Refusal
  /-- What was asked so far, the first call first. -/
  events : List Event

/-- A world that has not been asked anything yet and refuses nothing. -/
def World.watched (w : World) : Watched where
  world := w
  refuses _ _ := none
  events := []

/-- Computations on a watched world. -/
abbrev Watch := StateM Watched

namespace Watched

/-- The answer to a call, and the world behind it. -/
def answer (s : Watched) (call : Call) : call.Answer × World :=
  match s.refuses s.events call with
  | some r => (call.refused r.cause, call.interrupted r s.world)
  | none => call.perform s.world

def ask (s : Watched) (call : Call) : call.Answer × Watched :=
  ((s.answer call).1,
    { s with world := (s.answer call).2, events := s.events ++ [⟨call, (s.answer call).1⟩] })

end Watched

instance : Host Watch where
  readText path := fun s => s.ask (.readText path)
  writeText path text := fun s => s.ask (.writeText path text)
  createDirs path := fun s => s.ask (.createDirs path)
  pathExists path := fun s => s.ask (.pathExists path)
  realPath path := fun s => s.ask (.realPath path)
  launch command := fun s => s.ask (.launch command)
  print text := fun s => s.ask (.print text)

/-- A program that ended ran on the files that were there. -/
theorem World.run_of_launch {command : Launch} {exit : Exit} {w w' : World}
    (h : w.launch command = (.ok exit, w')) :
    ∃ program dir, w.findProgram command = .ok (program, dir) ∧
      program.run command.program command.args dir w.tree = (w'.tree, exit) := by
  unfold launch at h
  split at h
  · exact absurd (Prod.mk.inj h).1 (by simp)
  · rename_i program dir hfound
    obtain ⟨hexit, rfl⟩ := Prod.mk.inj h
    exact ⟨program, dir, hfound, Prod.ext rfl (Except.ok.inj hexit)⟩

/-- A program that was not started left everything as it was. -/
theorem World.eq_of_launch {command : Launch} {e : SystemError} {w w' : World}
    (h : w.launch command = (.error e, w')) : w' = w := by
  unfold launch at h
  split at h
  · exact (Prod.mk.inj h).2.symm
  · exact absurd (Prod.mk.inj h).1 (by simp)

theorem World.exists_of_writeText {path text : String} {w w' : World}
    (h : w.writeText path text = (.ok (), w')) :
    ∃ tree, w.tree.writeBytes w.cwd path text.toUTF8 = .ok tree ∧ w' = { w with tree } := by
  unfold writeText at h
  split at h
  · rename_i tree htree
    exact ⟨tree, htree, (Prod.mk.inj h).2.symm⟩
  · exact absurd (Prod.mk.inj h).1 (by simp)

/-- Whether a text can be written does not depend on the text. -/
theorem World.writeText_answer (w : World) (path text : String) :
    (w.writeText path text).1 = (fun _ => ()) <$> w.tree.target w.cwd path := by
  unfold writeText FileTree.writeBytes
  cases w.tree.target w.cwd path with
  | error e => rfl
  | ok loc => rfl

namespace Watch

variable {α β : Type}

theorem run_bind (x : Watch α) (f : α → Watch β) (s : Watched) :
    (x >>= f).run s = (f (x.run s).1).run (x.run s).2 := rfl

@[simp] theorem run_pure (a : α) (s : Watched) : (pure a : Watch α).run s = (a, s) := rfl

@[simp] theorem run_readText (path : String) (s : Watched) :
    (Host.readText path : Watch _).run s = s.ask (.readText path) := rfl

@[simp] theorem run_writeText (path text : String) (s : Watched) :
    (Host.writeText path text : Watch _).run s = s.ask (.writeText path text) := rfl

@[simp] theorem run_createDirs (path : String) (s : Watched) :
    (Host.createDirs path : Watch _).run s = s.ask (.createDirs path) := rfl

@[simp] theorem run_realPath (path : String) (s : Watched) :
    (Host.realPath path : Watch _).run s = s.ask (.realPath path) := rfl

@[simp] theorem run_launch (command : Launch) (s : Watched) :
    (Host.launch command : Watch _).run s = s.ask (.launch command) := rfl

@[simp] theorem run_log (level : Level) (message : String) (s : Watched) :
    (Host.log level message : Watch Unit).run s =
      s.ask (.print (level.name ++ " " ++ Log.escape message ++ "\n")) := rfl

end Watch

namespace Watched

variable {s : Watched} {path text : String} {command : Launch}

@[simp] theorem ask_refuses (s : Watched) (call : Call) : (s.ask call).2.refuses = s.refuses := rfl

@[simp] theorem ask_events (s : Watched) (call : Call) :
    (s.ask call).2.events = s.events ++ [⟨call, (s.ask call).1⟩] := rfl

/-! ## What a call changes -/

/-- A call is refused, or it is performed. -/
theorem ask_cases (s : Watched) (call : Call) :
    (∃ r, (s.ask call).1 = call.refused r.cause ∧
      (s.ask call).2.world = call.interrupted r s.world) ∨
      ((s.ask call).1 = (call.perform s.world).1 ∧
        (s.ask call).2.world = (call.perform s.world).2) := by
  unfold ask answer
  cases s.refuses s.events call with
  | some r => exact Or.inl ⟨r, rfl, rfl⟩
  | none => exact Or.inr ⟨rfl, rfl⟩

/-- A call that is not refused is performed. -/
theorem ask_of_granted {call : Call} (h : s.refuses s.events call = none) :
    (s.ask call).1 = (call.perform s.world).1 ∧
      (s.ask call).2.world = (call.perform s.world).2 := by
  unfold ask answer
  rw [h]
  exact ⟨rfl, rfl⟩

theorem ask_rest (s : Watched) (call : Call) : (s.ask call).2.world =
    { s.world with
      tree := (s.ask call).2.world.tree, output := (s.ask call).2.world.output } := by
  rcases s.ask_cases call with ⟨r, -, h⟩ | ⟨-, h⟩
  · rw [h, Call.interrupted_rest]
  · rw [h, Call.perform_rest]

@[simp] theorem ask_readText_world (s : Watched) (path : String) :
    (s.ask (.readText path)).2.world = s.world := by
  rcases s.ask_cases (.readText path) with ⟨r, -, h⟩ | ⟨-, h⟩
  · exact h
  · exact h

@[simp] theorem ask_realPath_world (s : Watched) (path : String) :
    (s.ask (.realPath path)).2.world = s.world := by
  rcases s.ask_cases (.realPath path) with ⟨r, -, h⟩ | ⟨-, h⟩
  · exact h
  · exact h

@[simp] theorem ask_print_tree (s : Watched) (text : String) :
    (s.ask (.print text)).2.world.tree = s.world.tree := by
  rcases s.ask_cases (.print text) with ⟨r, -, h⟩ | ⟨-, h⟩
  · rw [h]
    rfl
  · rw [h]
    rfl

/-- A text that was read is the text of the file. -/
theorem readText_of_ask (h : (s.ask (.readText path)).1 = .ok text) :
    s.world.readText path = .ok text := by
  rcases s.ask_cases (.readText path) with ⟨r, hanswer, -⟩ | ⟨hanswer, -⟩
  · exact absurd (h.symm.trans hanswer) (by simp [Call.refused])
  · exact hanswer.symm.trans h

/-- A text that could not be written left everything as it was. -/
theorem ask_writeText_world_of_error {e : SystemError}
    (h : (s.ask (.writeText path text)).1 = .error e) :
    (s.ask (.writeText path text)).2.world = s.world := by
  rcases s.ask_cases (.writeText path text) with ⟨r, -, hworld⟩ | ⟨hanswer, hworld⟩
  · exact hworld
  · exact World.eq_of_writeText (Prod.ext (hanswer.symm.trans h) hworld.symm)

theorem writeText_of_ask (h : (s.ask (.writeText path text)).1 = .ok ()) :
    s.world.writeText path text = (.ok (), (s.ask (.writeText path text)).2.world) := by
  rcases s.ask_cases (.writeText path text) with ⟨r, hanswer, -⟩ | ⟨hanswer, hworld⟩
  · exact absurd (h.symm.trans hanswer) (by simp [Call.refused])
  · exact Prod.ext (hanswer.symm.trans h) hworld.symm

/-- A program that ended was started and left its files behind. -/
theorem launch_of_ask {exit : Exit} (h : (s.ask (.launch command)).1 = .ok exit) :
    s.world.launch command = (.ok exit, (s.ask (.launch command)).2.world) := by
  rcases s.ask_cases (.launch command) with ⟨r, hanswer, -⟩ | ⟨hanswer, hworld⟩
  · exact absurd (h.symm.trans hanswer) (by simp [Call.refused])
  · exact Prod.ext (hanswer.symm.trans h) hworld.symm

/-- A program that was not started left everything as it was. -/
theorem ask_launch_world_of_error {e : SystemError}
    (h : (s.ask (.launch command)).1 = .error e) :
    (s.ask (.launch command)).2.world = s.world := by
  rcases s.ask_cases (.launch command) with ⟨r, -, hworld⟩ | ⟨hanswer, hworld⟩
  · exact hworld
  · exact World.eq_of_launch (Prod.ext (hanswer.symm.trans h) hworld.symm)

/-! ## Runs -/

/-- A later state, between which and the earlier one the host was asked so much. Nothing else has
changed but the files and the output. -/
structure Follows (s : Watched) (asked : List Event) (s' : Watched) : Prop where
  events : s'.events = s.events ++ asked
  refuses : s'.refuses = s.refuses
  rest : s'.world = { s.world with tree := s'.world.tree, output := s'.world.output }

namespace Follows

variable {s' s'' : Watched} {asked asked' : List Event}

theorem cwd (h : Follows s asked s') : s'.world.cwd = s.world.cwd := by
  rw [h.rest]

theorem refl (s : Watched) : Follows s [] s :=
  ⟨(List.append_nil _).symm, rfl, rfl⟩

theorem trans (h : Follows s asked s') (h' : Follows s' asked' s'') :
    Follows s (asked ++ asked') s'' := by
  refine ⟨?_, h'.refuses.trans h.refuses, ?_⟩
  · rw [h'.events, h.events, List.append_assoc]
  · rw [h'.rest, h.rest]

theorem ask (s : Watched) (call : Call) : Follows s [⟨call, (s.ask call).1⟩] (s.ask call).2 :=
  ⟨rfl, rfl, s.ask_rest call⟩

end Follows

/-- No program has been started between the two states. -/
def StartsNothing (s s' : Watched) : Prop :=
  ∀ event ∈ s'.events.drop s.events.length, event.exit? = none

theorem startsNothing_iff {s s' : Watched} {asked : List Event}
    (h : s'.events = s.events ++ asked) :
    s.StartsNothing s' ↔ ∀ event ∈ asked, event.exit? = none := by
  rw [StartsNothing, h, List.drop_left]

theorem Follows.startsNothing_trans_iff {s s₁ s' : Watched} {asked asked' : List Event}
    (h : s.Follows asked s₁) (h' : s₁.Follows asked' s') :
    s.StartsNothing s' ↔ s.StartsNothing s₁ ∧ s₁.StartsNothing s' := by
  rw [startsNothing_iff (h.trans h').events, startsNothing_iff h.events,
    startsNothing_iff h'.events, List.forall_mem_append]

end Watched

end FolderFlow
