import FolderFlow.Proofs.Hosts
import FolderFlow.Proofs.Watch

/-!
# Watched worlds and sandboxes

A watched world that refuses nothing is a sandbox that also keeps a record. Whatever is composed of
calls does the same on both (`Watch.Mirrors`), so what is said of a patch or of a whole invocation
on watched worlds holds of it in a sandbox (`DocsPatcher.mirrors_patch`,
`Invocation.mirrors_perform`).
-/

namespace FolderFlow

/-! ## Calls of a host -/

/-- Makes the call to a host. -/
def Call.on {m : Type → Type} [Host m] : (call : Call) → m call.Answer
  | .readText path => Host.readText path
  | .writeText path text => Host.writeText path text
  | .createDirs path => Host.createDirs path
  | .pathExists path => Host.pathExists path
  | .realPath path => Host.realPath path
  | .launch command => Host.launch command
  | .print text => Host.print text

theorem Call.run_on_watched (call : Call) (s : Watched) :
    (call.on : Watch _).run s = s.ask call := by
  cases call <;> rfl

theorem Call.run_on_sandbox (call : Call) (w : World) :
    (call.on : Sandbox _).run w = call.perform w := by
  cases call <;> rfl

/-- Whole programs are related when their calls are, one by one. -/
theorem Host.Relates.of_calls {m n : Type → Type} [Monad m] [Host m] [Monad n] [Host n]
    {R : HostRel m n} (hsteps : RelatesSteps R)
    (hcalls : ∀ call : Call, R call.Answer call.on call.on) : Relates R where
  pure := hsteps.pure
  bind := hsteps.bind
  readText path := hcalls (.readText path)
  pathExists path := hcalls (.pathExists path)
  print text := hcalls (.print text)
  writeText path text := hcalls (.writeText path text)
  createDirs path := hcalls (.createDirs path)
  realPath path := hcalls (.realPath path)
  launch command := hcalls (.launch command)

/-! ## The same in a sandbox -/

/-- Nothing is refused. -/
def Watched.Grants (s : Watched) : Prop :=
  ∀ events call, s.refuses events call = none

example (w : World) : w.watched.Grants :=
  fun _ _ => rfl

namespace Watch

variable {α β : Type} {x : Watch α} {y : Sandbox α} {f : α → Watch β} {g : α → Sandbox β}

/-- What a computation does on a watched world that refuses nothing is what another one does in a
sandbox. -/
def Mirrors (x : Watch α) (y : Sandbox α) : Prop :=
  ∀ s : Watched, s.Grants → (x.run s).1 = (y.run s.world).1 ∧
    (x.run s).2.world = (y.run s.world).2 ∧ (x.run s).2.Grants

namespace Mirrors

theorem pure (a : α) : Mirrors (pure a) (pure a) :=
  fun _ hgrants => ⟨rfl, rfl, hgrants⟩

theorem bind (hx : Mirrors x y) (hf : ∀ a, Mirrors (f a) (g a)) : Mirrors (x >>= f) (y >>= g) := by
  intro s hgrants
  obtain ⟨hanswer, hworld, hgrants'⟩ := hx s hgrants
  have hrest := hf (x.run s).1 (x.run s).2 hgrants'
  rw [hworld, hanswer] at hrest
  rw [run_bind, FolderFlow.run_bind, hanswer]
  exact hrest

theorem call (call : Call) : Mirrors call.on call.on := by
  intro s hgrants
  obtain ⟨hanswer, hworld⟩ := Watched.ask_of_granted (hgrants s.events call)
  rw [call.run_on_watched, call.run_on_sandbox]
  exact ⟨hanswer, hworld, hgrants⟩

end Mirrors

end Watch

open Watch (Mirrors)

theorem Watch.relates_mirrors : Host.Relates fun α (x : Watch α) (y : Sandbox α) => Mirrors x y :=
  .of_calls ⟨.pure, .bind⟩ .call

/-- A patch on a watched world that refuses nothing is the patch in a sandbox. -/
theorem DocsPatcher.mirrors_patch {ε : Type} (p : DocsPatcher ε) (flow : Flow)
    (docs : DocsOptions) : Mirrors (p.patch flow docs) (p.patch flow docs) :=
  Watch.relates_mirrors.patch p flow docs

/-- An invocation on a watched world that refuses nothing is the invocation in a sandbox. -/
theorem Invocation.mirrors_perform (i : Invocation) : Mirrors i.perform i.perform :=
  Watch.relates_mirrors.perform i

end FolderFlow
