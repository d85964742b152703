import Bundler.Proofs.Bundle.OnceLinked
import Bundler.Proofs.Bundle.Precedence

/-! # The order of execution

Linking lists the modules that the entry reaches, in the postorder of a walk along their imports and
re-exports.  Of modules that need each other some have to run before what they need, but what does not
lead back to a module always runs before it.
-/

namespace Bundler

namespace Graph

variable {graph other : Graph}

theorem Annotates.entry_known (annotates : Annotates graph other)
    (there : graph.HasProvider (.internal graph.entry)) : other.HasProvider (.internal other.entry) :=
  annotates.entry ▸ annotates.extension.hasProvider there

theorem Reachable.entry_known (reachable : graph.Reachable) :
    graph.HasProvider (.internal graph.entry) :=
  (reachable.induct (P := fun graph => graph.HasProvider (.internal graph.entry))
    (fun made => made.entry)
    (fun _ develops => develops.toAnnotates.entry_known)
    (fun _ => (alike_retainAll _ _).sameProgram.annotates.entry_known)
    (fun _ _ => (alike_retainFragment _ _).sameProgram.annotates.entry_known)
    (fun _ _ => (alike_retainWithin _ _ _).sameProgram.annotates.entry_known)
    (fun _ => (alike_shakeWithin _ _).sameProgram.annotates.entry_known)
    fun options _ => (sameProgram_assignNames options _).annotates.entry_known).2

namespace OnceLinked

theorem entry_known (linked : graph.OnceLinked) : graph.HasProvider (.internal graph.entry) := by
  induction linked with
  | link reachable linking =>
      exact (develops_of_link reachable.intact.sound linking).toAnnotates.entry_known reachable.entry_known
  | develops _ develops ih => exact develops.toAnnotates.entry_known ih
  | sameProgram _ same ih => exact same.annotates.entry_known ih

/-- Once a program is linked, its modules are in the order of execution. -/
theorem ordered (linked : graph.OnceLinked) : graph.order = graph.executionOrder := by
  induction linked with
  | link _ linking =>
      rw [(eq_of_link linking).2]
      rfl
  | develops _ develops ih =>
      rw [develops.executionOrder]
      exact develops.order.elim (·.trans ih) id
  | sameProgram _ same ih => rw [same.order, ih, same.annotates.executionOrder]

end OnceLinked

/-- Once a program is linked, every module that the entry reaches along imports and re-exports is listed
    for execution, once, and no other is.  The entry is the last one, and whatever a module imports or
    re-exports from comes before it, unless it leads back to that module. -/
theorem dependencies_first (linked : graph.OnceLinked) :
    graph.order.Nodup ∧ (∀ id, id ∈ graph.order ↔ graph.Reaches graph.entry id) ∧
      graph.order.getLast? = some graph.entry ∧
      ∀ id ∈ graph.order, ∀ source ∈ graph.order, graph.Links id (.internal source) →
        ¬ graph.Reaches source id → graph.Precedes source id := by
  have sound := linked.navigable.sound
  have entry := linked.entry_known
  have order := linked.ordered
  refine ⟨?_, fun id => ⟨fun executed => ?_, fun reaches => ?_⟩, ?_, fun id executed source _ links => ?_⟩
  · rw [order]
    exact graph.nodup_executionOrder
  · exact sound.needed (order ▸ executed)
  · rw [order]
    exact sound.executed entry (sound.executionOrder entry).1 reaches
  · rw [order, executionOrder, List.getLast?_reverse]
    exact DepthFirst.head?_walk _ _ _
  · exact (sound.links_precede entry order executed links).resolve_right

end Graph

/-- Two modules import from each other, a third one imports from the first of these, and a fourth one is
    needed by none. -/
def Draft.knotted : Draft :=
  let draft := (Draft.addModule {} "main").2
  let draft := (draft.addModule "a").2
  let draft := (draft.addModule "b").2
  let draft := (draft.addModule "spare").2
  let draft := ((declare ⟨2⟩ .constant "x" (some (.literal () .null)) true).outcome draft).2
  let draft := ((importFrom ⟨1⟩ (.internal ⟨2⟩) "x" "x").outcome draft).2
  let draft := ((exportFrom ⟨1⟩ (.internal ⟨2⟩) "x" "y").outcome draft).2
  let draft := ((importFrom ⟨2⟩ (.internal ⟨1⟩) "y" "y").outcome draft).2
  ((importFrom ⟨0⟩ (.internal ⟨1⟩) "y" "y").outcome draft).2

/-- The program with the module that is not part of the circle as its entry. -/
def Graph.knotted : Graph := Draft.knotted.graph

theorem Draft.built_knotted : Draft.knotted.Built := by
  refine .importFrom (.importFrom (.exportFrom (.importFrom (.declare (.addModule (.addModule
    (.addModule (.addModule .empty "main") "a") "b") "spare") ?_ _ _ _ _) ?_ ?_ _ _) ?_ ?_ _ _)
    ?_ ?_ _ _) ?_ ?_ _ _
  all_goals decide

theorem Graph.made_knotted : Graph.knotted.Made :=
  .finish Draft.built_knotted (by decide) rfl

namespace Graph

/-- The circle is executed before the module that leads into it, and the fourth module is not executed. -/
theorem order_knotted : ∃ linked, link.outcome knotted = (.ok (), linked) ∧ linked.order.Nodup ∧
    linked.order.getLast? = some ⟨0⟩ ∧ linked.Precedes ⟨1⟩ ⟨0⟩ ∧ linked.Reaches ⟨1⟩ ⟨2⟩ ∧
      linked.Reaches ⟨2⟩ ⟨1⟩ ∧ ¬ linked.Reaches ⟨0⟩ ⟨3⟩ := by
  have succeeds : (link.outcome knotted).1.isOk = true := by decide
  have entry : (link.outcome knotted).2.entry = ⟨0⟩ := by decide
  have executed : ⟨1⟩ ∈ (link.outcome knotted).2.order ∧ ⟨0⟩ ∈ (link.outcome knotted).2.order ∧
      ⟨3⟩ ∉ (link.outcome knotted).2.order := by decide
  have edges : ⟨1⟩ ∈ (link.outcome knotted).2.dependencies ⟨0⟩ ∧
      ⟨2⟩ ∈ (link.outcome knotted).2.dependencies ⟨1⟩ ∧
      ⟨1⟩ ∈ (link.outcome knotted).2.dependencies ⟨2⟩ := by decide
  have onward : ∀ id ∈ (link.outcome knotted).2.symbols.moduleIds,
      ∀ source ∈ (link.outcome knotted).2.dependencies id, source ≠ ⟨0⟩ := by decide
  cases linking : link.outcome knotted with
  | mk result linked =>
      rw [linking] at succeeds entry executed edges onward
      cases result with
      | error fault => cases succeeds
      | ok _ =>
          have once : linked.OnceLinked := .link (.made made_knotted) linking
          have sound := once.navigable.sound
          obtain ⟨into, there, back⟩ := edges
          have apart : ¬ linked.Reaches ⟨1⟩ ⟨0⟩ := fun reaches => by
            rcases Relation.ReflTransGen.cases_tail reaches with same | ⟨id, -, links⟩
            · cases same
            · have source := sound.mem_dependencies.mpr links
              obtain ⟨_, member, -⟩ := links
              exact onward id (Symbols.mem_moduleIds.mpr (Symbols.lt_of_mem_body member)) _ source rfl
          obtain ⟨nodup, reached, last, first⟩ := dependencies_first once
          rw [entry] at reached last
          have links := sound.mem_dependencies.mp into
          exact ⟨linked, rfl, nodup, last, first _ executed.2.1 _ executed.1 links apart,
            .single (sound.mem_dependencies.mp there), .single (sound.mem_dependencies.mp back),
            fun reaches => executed.2.2 ((reached _).mpr reaches)⟩

end Graph

end Bundler
