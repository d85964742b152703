import Bundler.Proofs.Bundle.Reachable
import Bundler.Proofs.Graph.Lasting

/-! # Properties that last through a bundle

A property of symbols that lasts while a program is linked and resolved, and that neither inclusion nor
naming touches, holds of every reachable state.
-/

namespace Bundler.Graph

open Symbols (Lasting)
open Symbols.Lasting (Over)

variable {asked said : String → Prop} {P : Symbols → Prop} {nodes : Array Node} {graph other : Graph}

/-- The property holds whatever is included, and of symbols that have just been named. -/
structure Endures (P : Symbols → Prop) : Prop where
  alike : ∀ {graph other : Graph}, Alike graph other → P graph.symbols → P other.symbols
  named : ∀ {graph : Graph} (options : Options), graph.Sound → P graph.symbols →
    P (assignNames options graph).symbols

theorem Endures.of_sameProgram
    (same : ∀ {graph other : Graph}, SameProgram graph other → P graph.symbols → P other.symbols) :
    Endures P :=
  ⟨fun alike => same alike.sameProgram, fun options _ => same (sameProgram_assignNames options _)⟩

/-- A property that lasts and endures holds of every reachable state if it holds of the finished program. -/
theorem Reachable.lasts (lasting : Lasting asked said P) (endures : Endures P)
    (reachable : graph.Reachable) (mentions : Mentions asked said graph.nodes)
    (made : ∀ {made : Graph}, made.Made → made.nodes = graph.nodes → P made.symbols) : P graph.symbols := by
  have alike : ∀ {before after : Graph}, Alike before after →
      (before.nodes = graph.nodes → P before.symbols) → after.nodes = graph.nodes → P after.symbols :=
    fun alike holds same => endures.alike alike (holds (alike.sameProgram.nodes ▸ same))
  have developed : ∀ {before after : Graph}, Develops before after →
      (Over graph.nodes P before → Over graph.nodes P after) →
      (before.nodes = graph.nodes → P before.symbols) → after.nodes = graph.nodes → P after.symbols :=
    fun develops keeps holds same =>
      (keeps ⟨develops.nodes ▸ same, holds (develops.nodes ▸ same)⟩).2
  refine (reachable.steps (P := fun state => state.nodes = graph.nodes → P state.symbols)
    (fun made' => made made') (fun intact => developed (develops_link intact.sound) (lasting.graph_link _ _))
    (fun options intact => developed (develops_resolve intact.sound options) fun held => ?_)
    (fun options id intact inside => developed (develops_resolveNode intact.sound inside options)
      fun held => ?_)
    (fun _ => alike (alike_retainAll _ _)) (fun _ _ => alike (alike_retainFragment _ _))
    (fun _ _ => alike (alike_retainWithin _ _ _)) (fun _ => alike (alike_shakeWithin _ _))
    fun options intact holds same => ?_).2 rfl
  · exact lasting.resolve (held.1 ▸ intact.sound.arena) mentions (lasting.asks held.2).plain options _ held
  · exact lasting.resolveNode (held.1 ▸ intact.sound.arena) mentions (lasting.asks held.2).plain
      options (held.1 ▸ inside) _ held
  · exact endures.named options intact.sound
      (holds ((sameProgram_assignNames options _).nodes ▸ same))

end Bundler.Graph
