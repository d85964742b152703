import Bundler.Proofs.Graph.Interning
import Bundler.Graph.Order

/-! # Linking

Every step of linking develops the program.  When linking succeeds all imports have their targets, since
what the steps add on the way is no import.
-/

namespace Bundler.Graph

variable {graph other : Graph}

/-! ## Imports -/

theorem linkImport_outcome (symbols : Symbols) (id : DeclId) :
    ((Symbols.linkImport id).outcome symbols = (.ok (), symbols) ∧
        ∀ source name, (symbols.declarationAt id).kind ≠ .imported source name none) ∨
      (∃ fault, (Symbols.linkImport id).outcome symbols = (.error fault, symbols)) ∨
      ∃ source name origin, (symbols.declarationAt id).kind = .imported source name none ∧
        symbols.declarationOrigin? id = .ok (some origin) ∧
        (Symbols.linkImport id).outcome symbols =
          (.ok (), (symbols.intern origin).2.setTarget id (symbols.intern origin).1) := by
  by_cases untargeted : ∃ source name, (symbols.declarationAt id).kind = .imported source name none
  · obtain ⟨source, name, kind⟩ := untargeted
    rw [Symbols.linkImport_of_kind kind]
    cases symbols.declarationOrigin? id with
    | error fault => exact .inr (.inl ⟨fault, rfl⟩)
    | ok found =>
        cases found with
        | none => exact .inr (.inl ⟨_, rfl⟩)
        | some origin => exact .inr (.inr ⟨source, name, origin, kind, rfl, rfl⟩)
  · have targeted : ∀ source name, (symbols.declarationAt id).kind ≠ .imported source name none :=
      fun source name kind => untargeted ⟨source, name, kind⟩
    exact .inl ⟨Symbols.linkImport_of_targeted targeted, targeted⟩

theorem Sound.declarationOrigin (sound : graph.Sound) {id : DeclId} {source : Provider}
    {name : String} {origin : Origin}
    (kind : (graph.symbols.declarationAt id).kind = .imported source name none)
    (found : graph.symbols.declarationOrigin? id = .ok (some origin)) :
    ∃ owner, (graph.symbols.declarationAt id).owner = some (.internal owner) ∧
      graph.OriginVisible owner origin := by
  obtain ⟨owner, owned, links, -⟩ :=
    (sound.declarations (Symbols.lt_of_imported kind)).imported kind
  refine ⟨owner, owned, ?_⟩
  simp only [Symbols.declarationOrigin?, Symbols.bindingOrigin?, kind, Symbols.requestOrigin?] at found
  split at found
  · cases found
    exact sound.namespaceOrigin links
  · exact (sound.provides (sound.known links) (Symbols.provides_of_search? found)).visible links.sees

/-- Linking an import finds out more about the program, and its target if it succeeds. -/
theorem develops_linkImport (sound : graph.Sound) (id : DeclId) :
    Develops graph (graph.withSymbols ((Symbols.linkImport id).outcome graph.symbols).2) ∧
      (((Symbols.linkImport id).outcome graph.symbols).1 = .ok () →
        (graph.withSymbols ((Symbols.linkImport id).outcome graph.symbols).2).Targeted id) := by
  rcases linkImport_outcome graph.symbols id with
    ⟨same, linked⟩ | ⟨fault, same⟩ | ⟨source, name, origin, kind, found, after⟩
  · rw [same]
    exact ⟨Develops.refl graph, fun _ => linked⟩
  · rw [same]
    exact ⟨Develops.refl graph, by simp⟩
  · rw [after]
    obtain ⟨owner, owned, visible⟩ := sound.declarationOrigin kind found
    obtain ⟨interned, target, final⟩ := develops_intern sound visible
    have entry := Symbols.declarationAt_intern (Symbols.lt_of_imported kind) origin
    have kind' := (congrArg Declaration.kind entry).trans kind
    refine ⟨interned.trans (develops_setTarget kind' ?_ target final), fun _ other imported => ?_⟩
    · exact (congrArg Declaration.owner entry).trans owned
    · rw [withSymbols, declarationAt_setTarget kind', if_pos rfl]
      simp

theorem develops_linkImports (sound : graph.Sound) (ids : List DeclId) :
    Develops graph (graph.withSymbols ((ids.forM Symbols.linkImport).outcome graph.symbols).2) ∧
      (((ids.forM Symbols.linkImport).outcome graph.symbols).1 = .ok () →
        ∀ id ∈ ids, graph.HasDeclaration id →
          (graph.withSymbols ((ids.forM Symbols.linkImport).outcome graph.symbols).2).Targeted id) := by
  induction ids generalizing graph with
  | nil => exact ⟨Develops.refl graph, fun _ _ member => absurd member List.not_mem_nil⟩
  | cons id rest ih =>
      obtain ⟨first, here⟩ := develops_linkImport sound id
      rw [List.forM_eq_forM, List.forM_cons, Step.outcome_bind]
      cases outcome : (Symbols.linkImport id).outcome graph.symbols with
      | mk result symbols =>
          rw [outcome] at first here
          cases result with
          | error fault => exact ⟨first, by simp⟩
          | ok _ =>
              obtain ⟨later, all⟩ := ih (first.sound sound)
              constructor
              · exact first.trans later
              · intro succeeded other member inside
                have still := first.extension.hasDeclaration inside
                rcases List.mem_cons.mp member with rfl | among
                · exact later.extension.targeted still (here rfl)
                · exact all succeeded other among still

/-- When all imports have been linked, every import has its target. -/
theorem targeted_linkImports (sound : graph.Sound) {symbols : Symbols}
    (succeeded : (graph.symbols.declarationIds.forM Symbols.linkImport).outcome graph.symbols =
      (.ok (), symbols)) {id : DeclId} (inside : (graph.withSymbols symbols).HasDeclaration id) :
    (graph.withSymbols symbols).Targeted id := by
  obtain ⟨develops, targeted⟩ := develops_linkImports sound graph.symbols.declarationIds
  rw [succeeded] at develops targeted
  rcases develops.added inside with before | final
  · exact targeted rfl id (Symbols.mem_declarationIds.mpr before) before
  · exact final.targeted

/-! ## Exports -/

theorem develops_resolveExports (sound : graph.Sound) {id : ModuleId}
    (there : graph.HasProvider (.internal id)) (names : List String) :
    Develops graph (graph.withSymbols ((Symbols.resolveExports id names).outcome graph.symbols).2) ∧
      ∀ resolved, ((Symbols.resolveExports id names).outcome graph.symbols).1 = .ok resolved →
        ∀ entry ∈ resolved,
          (graph.withSymbols ((Symbols.resolveExports id names).outcome graph.symbols).2).Visible id
              entry.2 ∧
            (graph.withSymbols ((Symbols.resolveExports id names).outcome graph.symbols).2).Final
              entry.2 := by
  induction names generalizing graph with
  | nil =>
      constructor
      · exact Develops.refl graph
      · intro resolved same entry member
        cases same
        exact absurd member List.not_mem_nil
  | cons name rest ih =>
      obtain ⟨first, found⟩ := develops_resolveExport? sound there name
      rw [Symbols.resolveExports, Step.outcome_bind]
      cases outcome : (Symbols.resolveExport? (.internal id) name).outcome graph.symbols with
      | mk result symbols =>
          rw [outcome] at first found
          cases result with
          | error fault => exact ⟨first, by simp⟩
          | ok here =>
              obtain ⟨later, all⟩ := ih (first.sound sound) (first.extension.hasProvider there)
              dsimp only at later all ⊢
              rw [Step.outcome_bind]
              rw [withSymbols] at later all
              cases tail : (Symbols.resolveExports id rest).outcome symbols with
              | mk result last =>
                  rw [tail] at later all
                  cases result with
                  | error fault => exact ⟨first.trans later, by simp⟩
                  | ok resolved =>
                      constructor
                      · exact first.trans later
                      · intro _ same entry member
                        cases same
                        rcases List.mem_append.mp member with this | among
                        · obtain ⟨declaration, named, rfl⟩ :=
                            Option.map_eq_some_iff.mp (Option.mem_toList.mp this)
                          have visible := found declaration (congrArg Except.ok named) id .refl
                          exact ⟨later.extension.visible visible.1,
                            later.extension.final visible.1.inside visible.2⟩
                        · exact all resolved rfl entry among

theorem develops_linkExports (sound : graph.Sound) {id : ModuleId}
    (there : graph.HasProvider (.internal id)) :
    Develops graph (graph.withSymbols ((Symbols.linkExports id).outcome graph.symbols).2) := by
  obtain ⟨develops, visible⟩ := develops_resolveExports sound there (graph.symbols.exportedNames id)
  rw [Symbols.linkExports, Step.outcome_bind, Step.outcome_get]
  dsimp only
  rw [Step.outcome_bind]
  cases outcome : (Symbols.resolveExports id (graph.symbols.exportedNames id)).outcome graph.symbols with
  | mk result symbols =>
      rw [outcome] at develops visible
      cases result with
      | error fault => exact develops
      | ok resolved => exact develops.trans (develops_setExports (visible resolved rfl))

theorem develops_linkModules (sound : graph.Sound) {ids : List ModuleId}
    (there : ∀ id ∈ ids, graph.HasProvider (.internal id)) :
    Develops graph (graph.withSymbols ((ids.forM Symbols.linkExports).outcome graph.symbols).2) := by
  induction ids generalizing graph with
  | nil => exact Develops.refl graph
  | cons id rest ih =>
      have first := develops_linkExports sound (there id List.mem_cons_self)
      rw [List.forM_eq_forM, List.forM_cons, Step.outcome_bind]
      cases outcome : (Symbols.linkExports id).outcome graph.symbols with
      | mk result symbols =>
          rw [outcome] at first
          cases result with
          | error fault => exact first
          | ok _ =>
              refine first.trans (ih (first.sound sound) fun other member => ?_)
              exact first.extension.hasProvider (there other (List.mem_cons_of_mem _ member))

/-! ## All together -/

/-- When linking succeeds, every import has its target. -/
theorem develops_linkSymbols (sound : graph.Sound) :
    Develops graph (graph.withSymbols (Symbols.link.outcome graph.symbols).2) ∧
      ((Symbols.link.outcome graph.symbols).1 = .ok () →
        ∀ {id}, (graph.withSymbols (Symbols.link.outcome graph.symbols).2).HasDeclaration id →
          (graph.withSymbols (Symbols.link.outcome graph.symbols).2).Targeted id) := by
  have first := (develops_linkImports sound graph.symbols.declarationIds).1
  rw [Symbols.link, Step.outcome_bind, Step.outcome_get]
  dsimp only
  rw [Step.outcome_bind]
  cases outcome : (graph.symbols.declarationIds.forM Symbols.linkImport).outcome graph.symbols with
  | mk result symbols =>
      rw [outcome] at first
      cases result with
      | error fault => exact ⟨first, by simp⟩
      | ok _ =>
          have later := develops_linkModules (first.sound sound)
            fun id (member : id ∈ symbols.moduleIds) => Symbols.mem_moduleIds.mp member
          dsimp only
          rw [Step.outcome_bind, Step.outcome_get]
          constructor
          · exact first.trans later
          · intro _ id inside
            rcases later.added inside with before | final
            · exact later.extension.targeted before (targeted_linkImports sound outcome before)
            · exact final.targeted

theorem develops_withOrder : Develops graph { graph with order := graph.executionOrder } := by
  refine { Annotates.refl graph with
    remembers := .refl _
    order := .inr rfl
    selection := rfl
    added := .inl
    sound := fun sound => ?_
    bound := fun _ bound => ?_ }
  · exact sound.withRest graph.entry graph.executionOrder graph.warnings
  · exact ⟨bound.linked, bound.final⟩

theorem link_outcome : link.outcome graph =
    match Symbols.link.outcome graph.symbols with
    | (.ok _, symbols) =>
      (.ok (), { graph.withSymbols symbols with order := (graph.withSymbols symbols).executionOrder })
    | (.error fault, symbols) => (.error fault, graph.withSymbols symbols) := by
  rw [link, Step.outcome_bind, onSymbols, Step.outcome_within]
  cases Symbols.link.outcome graph.symbols with
  | mk result symbols => cases result <;> rfl

/-- Linking with success changes the symbols and the order, and nothing else. -/
theorem eq_of_link (succeeded : link.outcome graph = (.ok (), other)) :
    Symbols.link.outcome graph.symbols = (.ok (), other.symbols) ∧
      other = { graph.withSymbols other.symbols with
        order := (graph.withSymbols other.symbols).executionOrder } := by
  rw [link_outcome] at succeeded
  cases outcome : Symbols.link.outcome graph.symbols with
  | mk result symbols =>
      rw [outcome] at succeeded
      cases result with
      | error fault => cases succeeded
      | ok _ =>
          cases succeeded
          exact ⟨rfl, rfl⟩

theorem link_symbols (succeeded : link.outcome graph = (.ok (), other)) :
    Symbols.link.outcome graph.symbols = (.ok (), other.symbols) := (eq_of_link succeeded).1

/-- Linking notes nothing about nodes. -/
theorem markAt_link (succeeded : link.outcome graph = (.ok (), other)) (id : NodeId) :
    other.markAt id = graph.markAt id := by
  rw [(eq_of_link succeeded).2]
  rfl

/-- Linking finds out more about the program, whether it fails or not. -/
theorem develops_link (sound : graph.Sound) : Develops graph (link.outcome graph).2 := by
  have develops := (develops_linkSymbols sound).1
  rw [link_outcome]
  cases outcome : Symbols.link.outcome graph.symbols with
  | mk result symbols =>
      rw [outcome] at develops
      cases result with
      | error fault => exact develops
      | ok _ => exact develops.trans develops_withOrder

theorem develops_of_link {result : Except Fault Unit} (sound : graph.Sound)
    (linking : link.outcome graph = (result, other)) : Develops graph other := by
  have develops := develops_link sound
  rwa [linking] at develops

/-- After linking with success nothing that has been found is an import, given that nothing has been
    found about nodes before. -/
theorem bound_link (sound : graph.Sound) (unknown : ∀ id, graph.denotation? id = none)
    (succeeded : link.outcome graph = (.ok (), other)) :
    other.Bound ∧ other.order = other.executionOrder := by
  obtain ⟨-, targeted⟩ := develops_linkSymbols sound
  rw [link_outcome] at succeeded
  cases outcome : Symbols.link.outcome graph.symbols with
  | mk result symbols =>
      rw [outcome] at succeeded targeted
      cases result with
      | error fault => cases succeeded
      | ok _ =>
          cases succeeded
          refine ⟨⟨targeted rfl, fun {id declaration} denoted => ?_⟩, rfl⟩
          exact absurd ((unknown id).symm.trans denoted) (by simp)

end Bundler.Graph
