import Bundler.Proofs.Inclusion.Shaking

/-! # External modules of included declarations

A declaration of something from an external module is never included without marking that module as
used.  This needs no closed selection: it holds in the middle of every retention.
-/

namespace Bundler.Graph

variable {graph other : Graph}

/-- The external modules of all included declarations are used. -/
def Accounted (graph : Graph) : Prop :=
  ∀ {id source name}, graph.includesDeclaration id = true →
    (graph.symbols.declarationAt id).kind = .provided source name →
    (graph.symbols.externalAt source).used = true

theorem Grows.accounted (grows : Grows graph other) (accounted : graph.Accounted) :
    other.Accounted := by
  intro id source name included kind
  rw [grows.alike.agrees.kind] at kind
  rcases grows.needs included with earlier | needs
  · exact grows.le.2.2 source (accounted earlier kind)
  · exact needs.provided kind

theorem accounted_markNodes (accounted : graph.Accounted) (ids : List NodeId) :
    (graph.markNodes ids).Accounted := by
  intro id source name included kind
  rw [includesDeclaration_markNodes] at included
  rw [symbols_markNodes] at kind ⊢
  exact accounted included kind

theorem accounted_markDeclaration (grounded : graph.Grounded) (accounted : graph.Accounted)
    (id : DeclId) : (graph.markDeclaration id).Accounted := by
  intro other source name included kind
  rw [(alike_markDeclaration id).agrees.kind] at kind
  rw [used_markDeclaration]
  rcases (includesDeclaration_markDeclaration id other).mp included with earlier | ⟨rfl, -⟩
  · exact .inl (accounted earlier kind)
  · exact .inr ⟨⟨name, kind⟩, grounded.provided kind⟩

theorem accounted_foldl {visit : Graph → DeclId → Graph}
    (alike : ∀ graph id, Alike graph (visit graph id))
    (step : ∀ graph : Graph, graph.Grounded → graph.Accounted → ∀ id, (visit graph id).Accounted)
    (grounded : graph.Grounded) (accounted : graph.Accounted) (ids : List DeclId) :
    (ids.foldl visit graph).Accounted := by
  induction ids generalizing graph with
  | nil => exact accounted
  | cons id rest ih =>
      exact ih ((alike graph id).grounded grounded) (step graph grounded accounted id)

theorem accounted_retainWithin (depth : Nat) (grounded : graph.Grounded) (accounted : graph.Accounted)
    (id : DeclId) : (retainWithin depth graph id).Accounted := by
  induction depth generalizing graph id with
  | zero => exact accounted
  | succ depth ih =>
      rw [retainWithin]
      split
      · exact accounted
      · refine accounted_foldl (alike_retainWithin depth)
          (fun _ grounded accounted => ih grounded accounted)
          ((alike_markDeclaration id).grounded grounded) ?_ _
        exact accounted_markDeclaration grounded accounted id

theorem accounted_retainAll (grounded : graph.Grounded) (accounted : graph.Accounted)
    (ids : List DeclId) : (graph.retainAll ids).Accounted :=
  accounted_foldl (fun graph => alike_retainWithin _ graph)
    (fun _ grounded accounted => accounted_retainWithin _ grounded accounted) grounded accounted ids

theorem accounted_retainFragment (grounded : graph.Grounded) (accounted : graph.Accounted)
    (fragment : Fragment) : (graph.retainFragment fragment).Accounted :=
  accounted_retainAll ((alike_markNodes _).grounded grounded) (accounted_markNodes accounted _) _

end Bundler.Graph
