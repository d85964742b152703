import Bundler.Proofs.Draft.Building
import Bundler.Proofs.Inclusion.Selection

/-! # What building leaves alone

Beside the text that they add, the ways to build a draft only name things: they change no node, no
text and no flag.  So an invariant of the text needs to be checked for added modules and statements
only.
-/

namespace Bundler

namespace Draft

variable (draft : Draft) (owner : ModuleId)

/-- The drafts have the same text and the same flags. -/
structure SameText (before after : Draft) : Prop where
  nodes : after.nodes = before.nodes
  modules : after.symbols.modules.size = before.symbols.modules.size
  source : ∀ id, (after.symbols.moduleAt id).source = (before.symbols.moduleAt id).source
  body : ∀ id, (after.symbols.moduleAt id).body = (before.symbols.moduleAt id).body
  included : ∀ id, after.graph.includesDeclaration id = before.graph.includesDeclaration id
  used : ∀ id, (after.symbols.externalAt id).used = (before.symbols.externalAt id).used

namespace SameText

theorem refl : SameText draft draft :=
  ⟨rfl, rfl, fun _ => rfl, fun _ => rfl, fun _ => rfl, fun _ => rfl⟩

theorem trans {before middle after : Draft} (first : SameText before middle)
    (second : SameText middle after) : SameText before after where
  nodes := second.nodes.trans first.nodes
  modules := second.modules.trans first.modules
  source id := (second.source id).trans (first.source id)
  body id := (second.body id).trans (first.body id)
  included id := (second.included id).trans (first.included id)
  used id := (second.used id).trans (first.used id)

end SameText

/-! ## Single changes -/

theorem sameText_modifyModule {change : Module → Module}
    (keeps : ∀ m, (change m).source = m.source ∧ (change m).body = m.body) :
    SameText draft { draft with symbols := draft.symbols.modifyModule owner change } where
  nodes := rfl
  modules := by simp [Symbols.modifyModule]
  source other := by
    rw [Symbols.moduleAt_modifyModule]
    split
    · exact (keeps _).1
    · rfl
  body other := by
    rw [Symbols.moduleAt_modifyModule]
    split
    · exact (keeps _).2
    · rfl
  included _ := rfl
  used _ := rfl

theorem sameText_addDeclaring (statement : Statement Unit) (name : String)
    (kind : NodeId → DeclarationKind) :
    SameText (draft.addStatement owner statement).2
      (draft.addDeclaring owner statement name kind).2 where
  nodes := rfl
  modules := rfl
  source _ := rfl
  body _ := rfl
  included id := by
    rw [graph_addDeclaring, Graph.includesDeclaration_addDeclaration]
  used _ := rfl

theorem sameText_bind (name : String) (id : DeclId) :
    SameText draft ((bind owner name id).outcome draft).2 := by
  rw [bind_outcome]
  split
  · exact ⟨rfl, rfl, fun _ => rfl, fun _ => rfl, fun _ => rfl, fun _ => rfl⟩
  · exact SameText.refl draft

theorem sameText_addExport (name : String) (entry : Export) :
    SameText draft ((addExport owner name entry).outcome draft).2 := by
  rw [addExport_outcome]
  split
  next symbols added =>
      rw [symbols_of_addExport added]
      exact sameText_modifyModule draft owner fun _ => ⟨rfl, rfl⟩
  next => exact SameText.refl draft

theorem used_propose (external : External) (hint : String) :
    (external.propose hint).used = external.used := by
  rw [External.propose]
  split <;> rfl

theorem sameText_proposeName (id : ExternalId) (hint : String) :
    SameText draft { draft with symbols := draft.symbols.proposeName id hint } where
  nodes := rfl
  modules := rfl
  source _ := rfl
  body _ := rfl
  included _ := rfl
  used other := by
    rw [Symbols.proposeName, Symbols.externalAt_modifyExternal]
    split
    · exact used_propose _ _
    · rfl

/-! ## Statements -/

theorem sameText_declare (mode : Mode) (name : String) (init : Option (Expr Unit))
    (exported : Bool) :
    SameText (draft.addStatement owner (.declare () exported mode () name init)).2
      ((declare owner mode name init exported).outcome draft).2 :=
  after_declare
    (sameText_addDeclaring draft owner (.declare () exported mode () name init) name .declared)
    (fun id after same => same.trans (sameText_bind after owner name id))
    fun _ id after same => same.trans (sameText_addExport after owner name (.own id))

theorem sameText_importFrom (source : Provider) (imported binding : String) :
    SameText (draft.addStatement owner (.importFrom () source (draft.symbols.specifier source)
        imported binding)).2
      ((importFrom owner source imported binding).outcome draft).2 :=
  after_importFrom
    (sameText_addDeclaring draft owner
      (.importFrom () source (draft.symbols.specifier source) imported binding) binding
      fun _ => .imported source imported none)
    (fun id after same => same.trans (sameText_bind after owner binding id))
    fun id _ _ after same => same.trans (sameText_proposeName after id binding)

/-- An invariant that looks at no more than text and flags holds of every draft if added modules and
    statements keep it. -/
theorem Built.text_induction {P : Draft → Prop} (empty : P {})
    (addModule : ∀ {draft} id, P draft → P (draft.addModule id).2)
    (addExternal : ∀ {draft} id, P draft → P (draft.addExternal id).2)
    (addStatement : ∀ {draft owner} (statement : Statement Unit),
      draft.graph.HasProvider (.internal owner) → P draft → P (draft.addStatement owner statement).2)
    (same : ∀ {before after}, SameText before after → P before → P after)
    {draft : Draft} (built : Built draft) : P draft := by
  induction built with
  | empty => exact empty
  | addModule _ id holds => exact addModule id holds
  | addExternal _ id holds => exact addExternal id holds
  | addExpression _ there body holds => exact addStatement _ there holds
  | declare _ there mode name init exported holds =>
      exact same (sameText_declare _ _ mode name init exported) (addStatement _ there holds)
  | importFrom _ there _ imported binding holds =>
      exact same (sameText_importFrom _ _ _ imported binding) (addStatement _ there holds)
  | exportLocal _ there binding exported holds =>
      refine same ?_ (addStatement (Statement.exportList () binding exported) there holds)
      exact ⟨rfl, rfl, fun _ => rfl, fun _ => rfl, fun _ => rfl, fun _ => rfl⟩
  | exportFrom _ there _ imported exported holds =>
      rw [exportFrom_outcome]
      exact same (sameText_addExport _ _ exported _) (addStatement _ there holds)
  | exportWhole _ there _ exported holds =>
      rw [exportWhole_outcome]
      exact same (sameText_addExport _ _ exported _) (addStatement _ there holds)
  | exportAll _ there _ holds =>
      exact same (sameText_modifyModule _ _ fun _ => ⟨rfl, rfl⟩) (addStatement _ there holds)

theorem Built.selection {draft : Draft} (built : Built draft) : draft.graph.selection = ⊥ := by
  have unflagged : (∀ id, draft.graph.includesDeclaration id = false) ∧
      ∀ id, (draft.symbols.externalAt id).used = false := by
    refine built.text_induction (P := fun draft =>
      (∀ id, draft.graph.includesDeclaration id = false) ∧
        ∀ id, (draft.symbols.externalAt id).used = false) ?_ ?_ ?_ ?_ ?_
    · exact ⟨fun _ => rfl, fun _ => rfl⟩
    · intro draft name holds
      refine ⟨fun id => ?_, holds.2⟩
      exact (Graph.includesDeclaration_addDeclaration id).trans (holds.1 id)
    · intro draft name holds
      constructor
      · exact holds.1
      · intro id
        rw [Draft.addExternal, Symbols.externalAt_addExternal]
        split
        · rfl
        · exact holds.2 id
    · exact fun _ _ holds => holds
    · exact fun same holds => ⟨fun id => (same.included id).trans (holds.1 id),
        fun id => (same.used id).trans (holds.2 id)⟩
  ext id
  · simp [Graph.selection, Graph.includesNode, Bot.bot]
  · exact unflagged.1 id
  · exact unflagged.2 id

end Draft

end Bundler
