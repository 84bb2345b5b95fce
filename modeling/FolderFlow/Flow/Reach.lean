import FolderFlow.Flow.Basic

/-!
# What a folder may import

A folder may import from the target of each of its own edges and from every folder at the end of a
path of plain edges. The search keeps the folders that are allowed so far, those whose edges have
been followed, and a stack of those whose edges may still have to be. Each step takes one folder off
the stack and follows the edges of a folder at most once, so the edges not yet followed and the
stack together shrink by one.
-/

namespace FolderFlow

namespace Flow

/-- The targets of the plain edges out of a folder. -/
def plainTargets (flow : Flow) (folder : String) : List String :=
  (flow.edges.filter fun e => e.source == folder && e.isPlain).map Edge.target

/-- The targets of all edges out of a folder. -/
def targets (flow : Flow) (folder : String) : List String :=
  (flow.edges.filter fun e => e.source == folder).map Edge.target

end Flow

/-- A state of the search; the top of the stack `pending` comes first. -/
structure Walk where
  allowed : List String
  expanded : List String
  pending : List String

namespace Walk

/-- The edges of the root are followed before the first step, those that are `selfOnly` with the
others. -/
def start (flow : Flow) (root : String) : Walk where
  allowed := flow.targets root
  expanded := [root]
  pending := (flow.plainTargets root).reverse

/-- Takes `folder` off the stack and follows its plain edges, unless that has been done. -/
def visit (flow : Flow) (w : Walk) (folder : String) (rest : List String) : Walk :=
  if w.expanded.contains folder then { w with pending := rest }
  else
    { allowed := w.allowed ++ flow.plainTargets folder
      expanded := folder :: w.expanded
      pending := (flow.plainTargets folder).reverse ++ rest }

/-- The plain edges whose source has not been expanded. -/
def unfollowed (flow : Flow) (w : Walk) : List Edge :=
  flow.edges.filter fun e => e.isPlain && !w.expanded.contains e.source

/-- The number of steps that are left. -/
def measure (flow : Flow) (w : Walk) : Nat :=
  (w.unfollowed flow).length + w.pending.length

theorem length_filter_split (edges : List Edge) (p q : Edge → Bool) :
    (edges.filter fun e => p e && !q e).length + (edges.filter fun e => p e && q e).length =
      (edges.filter p).length := by
  induction edges with
  | nil => rfl
  | cons e edges ih =>
    cases hp : p e <;> cases hq : q e <;> simp_all <;> omega

theorem measure_visit (flow : Flow) (w : Walk) (folder : String) (rest : List String) :
    (w.visit flow folder rest).measure flow = (w.unfollowed flow).length + rest.length := by
  unfold visit
  split
  · rfl
  · rename_i hnew
    simp only [measure, unfollowed, Flow.plainTargets, List.length_append, List.length_reverse,
      List.length_map]
    have hsplit := length_filter_split flow.edges
      (fun e => e.isPlain && !w.expanded.contains e.source) (fun e => e.source == folder)
    have hleft : (flow.edges.filter fun e =>
        e.isPlain && !(folder :: w.expanded).contains e.source) =
        flow.edges.filter fun e =>
          (e.isPlain && !w.expanded.contains e.source) && !(e.source == folder) := by
      congr 1
      funext e
      simp only [List.contains_cons, Bool.not_or]
      cases e.isPlain <;> cases (e.source == folder) <;> simp
    have hright : (flow.edges.filter fun e => e.source == folder && e.isPlain) =
        flow.edges.filter fun e =>
          (e.isPlain && !w.expanded.contains e.source) && (e.source == folder) := by
      congr 1
      funext e
      cases hs : (e.source == folder)
      · simp
      · have hnew : folder ∉ w.expanded := by simpa using hnew
        rw [beq_iff_eq.mp hs]
        simp [hnew]
    rw [hleft, hright]
    omega

/-- Goes on until the stack is empty. -/
def run (flow : Flow) (w : Walk) : Walk :=
  match h : w.pending with
  | [] => w
  | folder :: rest =>
    have : (w.visit flow folder rest).measure flow < w.measure flow := by
      rw [measure_visit, measure, h, List.length_cons]
      omega
    run flow (w.visit flow folder rest)
termination_by w.measure flow

end Walk

namespace Flow

/-- The folders from which `root` may import. -/
def allowedImports (flow : Flow) (root : String) : List String :=
  ((Walk.start flow root).run flow).allowed

/-- The members of `folders`, in their order, from which `root` may not import. -/
def disallowedImports (flow : Flow) (folders : FolderSet) (root : String) : List String :=
  let allowed := flow.allowedImports root
  folders.toList.filter fun folder => folder != root && !allowed.contains folder

end Flow

end FolderFlow
