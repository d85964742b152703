import Bundler.Proofs.Exports.Detours
import Bundler.Proofs.Exports.Publication
import Bundler.Proofs.Graph.Linking

/-! # Rerouting imports

An import may be written in another way: by way of a module that exports again what is imported.  If the
program can be linked with the short way, it can be linked with the long one, and nothing else is different
then.
-/

namespace Bundler

namespace Symbols

variable {symbols after : Symbols} {id : DeclId} {source source' : Provider} {name name' : String}
  {target : Option DeclId}

/-- The same symbols, but for the way in which an import is written. -/
def reroute (symbols : Symbols) (id : DeclId) (source : Provider) (name : String) : Symbols :=
  symbols.modifyDeclaration id fun declaration =>
    match declaration.kind with
    | .imported _ _ target => { declaration with kind := .imported source name target }
    | _ => declaration

/-! ## Changes of single declarations -/

theorem modifyDeclaration_comm {other : DeclId} {f g : Declaration → Declaration}
    (comm : ∀ declaration, f (g declaration) = g (f declaration)) :
    (symbols.modifyDeclaration id f).modifyDeclaration other g =
      (symbols.modifyDeclaration other g).modifyDeclaration id f := by
  simp only [modifyDeclaration, mk.injEq, true_and, and_true]
  apply Array.ext_getElem?
  intro i
  simp only [Array.getElem?_modify]
  split <;> split <;> simp [comm, Function.comp_def]

theorem modifyDeclaration_modifyDeclaration {f g h : Declaration → Declaration}
    (comp : ∀ declaration, g (f declaration) = h declaration) :
    (symbols.modifyDeclaration id f).modifyDeclaration id g = symbols.modifyDeclaration id h := by
  simp only [modifyDeclaration, mk.injEq, true_and, and_true]
  apply Array.ext_getElem?
  intro i
  simp only [Array.getElem?_modify]
  split <;> simp [comp, Function.comp_def]

theorem modifyDeclaration_self {f : Declaration → Declaration}
    (same : f (symbols.declarationAt id) = symbols.declarationAt id) :
    symbols.modifyDeclaration id f = symbols := by
  obtain ⟨modules, externals, declarations, globals⟩ := symbols
  simp only [modifyDeclaration, mk.injEq, true_and, and_true]
  apply Array.ext_getElem?
  intro i
  simp only [Array.getElem?_modify]
  split
  next here =>
      subst here
      rw [declarationAt, Array.getD_eq_getD_getElem?] at same
      cases found : declarations[id.index]? with
      | none => rfl
      | some declaration => simpa [found] using same
  next => rfl

theorem modifyDeclaration_addDeclaration (inside : id.index < symbols.declarations.size)
    {f : Declaration → Declaration} {name : String} {owner : Option Provider} {kind : DeclarationKind} :
    (symbols.modifyDeclaration id f).addDeclaration name owner kind =
      ((symbols.addDeclaration name owner kind).1,
        (symbols.addDeclaration name owner kind).2.modifyDeclaration id f) := by
  simp only [addDeclaration, modifyDeclaration, Array.size_modify, Prod.mk.injEq, true_and, mk.injEq,
    and_true]
  apply Array.ext_getElem?
  intro i
  simp only [Array.getElem?_modify, Array.getElem?_push, Array.size_modify]
  have last : id.index ≠ symbols.declarations.size := Nat.ne_of_lt inside
  split <;> split <;> simp_all

/-! ## Rerouted symbols -/

theorem declarationAt_reroute (kind : (symbols.declarationAt id).kind = .imported source' name' target)
    (other : DeclId) : (symbols.reroute id source name).declarationAt other =
      if other = id then { symbols.declarationAt id with kind := .imported source name target }
      else symbols.declarationAt other := by
  have inside := lt_of_imported kind
  rw [reroute, declarationAt_modifyDeclaration]
  by_cases same : other = id
  · subst same
    simp only [inside, and_self, if_true, kind]
  · simp only [same, false_and, if_false]

theorem kind_reroute (kind : (symbols.declarationAt id).kind = .imported source' name' target) :
    ((symbols.reroute id source name).declarationAt id).kind = .imported source name target := by
  rw [declarationAt_reroute kind, if_pos rfl]

/-- Nothing denotes anything else. -/
theorem denoted_reroute (other : DeclId) :
    (symbols.reroute id source name).denoted other = symbols.denoted other := by
  by_cases changed : other = id ∧ id.index < symbols.declarations.size
  · rw [denoted, denoted, reroute, declarationAt_modifyDeclaration, if_pos changed]
    generalize symbols.declarationAt other = declaration
    obtain ⟨_, _, kind, _, _⟩ := declaration
    cases kind with
    | imported source' name' target => cases target <;> rfl
    | declared | namespaceOf | provided | free => rfl
  · rw [denoted, denoted, reroute, declarationAt_modifyDeclaration, if_neg changed]

theorem reroute_reroute : (symbols.reroute id source' name').reroute id source name =
    symbols.reroute id source name := by
  refine modifyDeclaration_modifyDeclaration fun declaration => ?_
  obtain ⟨_, _, kind, _, _⟩ := declaration
  cases kind <;> rfl

/-- An import that is written as it was is the same. -/
theorem reroute_self (kind : (symbols.declarationAt id).kind = .imported source name target) :
    symbols.reroute id source name = symbols := by
  refine modifyDeclaration_self ?_
  generalize symbols.declarationAt id = declaration at kind
  obtain ⟨_, _, _, _, _⟩ := declaration
  cases kind
  rfl

theorem setTarget_reroute (other target : DeclId) :
    (symbols.reroute id source name).setTarget other target =
      (symbols.setTarget other target).reroute id source name := by
  refine modifyDeclaration_comm fun declaration => ?_
  obtain ⟨_, _, kind, _, _⟩ := declaration
  cases kind <;> rfl

theorem intern_reroute (inside : id.index < symbols.declarations.size) (origin : Origin) :
    (symbols.reroute id source name).intern origin =
      ((symbols.intern origin).1, (symbols.intern origin).2.reroute id source name) := by
  cases origin with
  | declaration => rfl
  | provided external provided =>
      rw [intern, intern, externalDeclaration, externalDeclaration]
      have same : (symbols.reroute id source name).externalAt external = symbols.externalAt external := rfl
      rw [same]
      split
      next => rfl
      next =>
          rw [reroute, modifyDeclaration_addDeclaration inside]
          rfl

/-! ## Steps that do not depend on the way -/

/-- What the step finds out, it finds out after the change as well, and the change can be made afterwards.
    The property holds of the states before and after. -/
def Commutes (P : Symbols → Prop) (change : Symbols → Symbols) {α : Type} (step : Step Symbols α) :
    Prop :=
  ∀ symbols a after, P symbols → step.outcome symbols = (.ok a, after) →
    P after ∧ step.outcome (change symbols) = (.ok a, change after)

namespace Commutes

variable {P : Symbols → Prop} {change : Symbols → Symbols} {α β : Type}

theorem pure (a : α) : Commutes P change (Pure.pure a : Step Symbols α) := by
  intro symbols a after holds outcome
  cases outcome
  exact ⟨holds, rfl⟩

theorem bind {step : Step Symbols α} {next : α → Step Symbols β} (first : Commutes P change step)
    (later : ∀ a, Commutes P change (next a)) : Commutes P change (step >>= next) := by
  intro symbols b after holds outcome
  obtain ⟨a, middle, here, rest⟩ := Step.ok_of_bind outcome
  obtain ⟨holds', here'⟩ := first _ _ _ holds here
  obtain ⟨holds'', rest'⟩ := later a _ _ _ holds' rest
  refine ⟨holds'', ?_⟩
  rw [Step.outcome_bind, here']
  exact rest'

theorem forM {step : α → Step Symbols Unit} {items : List α}
    (each : ∀ item ∈ items, Commutes P change (step item)) : Commutes P change (items.forM step) := by
  induction items with
  | nil => exact pure ()
  | cons item rest ih =>
      rw [List.forM_eq_forM, List.forM_cons]
      exact bind (each item List.mem_cons_self) fun _ =>
        ih fun item member => each item (List.mem_cons_of_mem _ member)

end Commutes

/-! ## Linking -/

variable {detour : ModuleId × String} {imported : String}

/-- An import takes straight from a source what the module of the detour exports again from there. -/
structure Shortcut (detour : ModuleId × String) (source : Provider) (imported : String) (id : DeclId)
    (symbols : Symbols) : Prop where
  again : (symbols.moduleAt detour.1).exports[detour.2]? = some (.again source imported)
  named : imported ≠ wholeModule
  kind : ∃ target, (symbols.declarationAt id).kind = .imported source imported target

namespace Shortcut

variable (shortcut : Shortcut detour source imported id symbols)

include shortcut

theorem inside : id.index < symbols.declarations.size := by
  obtain ⟨target, kind⟩ := shortcut.kind
  exact lt_of_imported kind

/-- The import takes the detour when it is written by way of it. -/
theorem detours (named : detour.2 ≠ wholeModule) :
    Detours symbols (symbols.reroute id (.internal detour.1) detour.2) detour source imported where
  toSameModules := .of_modules rfl
  again := shortcut.again
  named := shortcut.named
  kind other := by
    obtain ⟨target, kind⟩ := shortcut.kind
    rw [declarationAt_reroute kind]
    split
    next same => exact .inr ⟨named, target, same ▸ kind, rfl⟩
    next => exact .inl rfl

theorem of_exports (same : SameModules symbols after)
    (kind : ∃ target, (after.declarationAt id).kind = .imported source imported target) :
    Shortcut detour source imported id after where
  again := (same.exports detour.1).symm ▸ shortcut.again
  named := shortcut.named
  kind := kind

theorem intern (origin : Origin) : Shortcut detour source imported id (symbols.intern origin).2 := by
  obtain ⟨target, kind⟩ := shortcut.kind
  refine shortcut.of_exports (.of_modules (symbols.modules_intern origin)) ⟨target, ?_⟩
  rw [declarationAt_intern shortcut.inside, kind]

theorem setTarget (other target : DeclId) :
    Shortcut detour source imported id (symbols.setTarget other target) := by
  refine shortcut.of_exports (.of_modules rfl) ?_
  obtain ⟨_, kind⟩ := shortcut.kind
  rw [Symbols.setTarget, declarationAt_modifyDeclaration]
  split
  · rw [kind]
    exact ⟨_, rfl⟩
  · exact ⟨_, kind⟩

theorem setExports (other : ModuleId) (resolvedExports : List (String × DeclId)) :
    Shortcut detour source imported id
      (symbols.modifyModule other fun m => { m with resolvedExports }) := by
  refine shortcut.of_exports ⟨Array.size_modify .., fun id => ?_⟩ shortcut.kind
  rw [moduleAt_modifyModule]
  split <;> exact ⟨_, rfl⟩

end Shortcut

variable (named : detour.2 ≠ wholeModule)

include named

theorem commutes_resolveExport? (next : Provider) (name : String) :
    Commutes (Shortcut detour source imported id) (reroute · id (.internal detour.1) detour.2)
      (resolveExport? next name) := by
  intro symbols found after shortcut outcome
  rw [resolveExport?_outcome] at outcome ⊢
  cases answered : symbols.exportOrigin? next name with
  | error fault =>
      rw [answered] at outcome
      cases outcome
  | ok origin =>
      rw [answered] at outcome
      rw [(shortcut.detours named).exportOrigin?_ok answered]
      cases origin with
      | none =>
          cases outcome
          exact ⟨shortcut, rfl⟩
      | some origin =>
          cases outcome
          refine ⟨shortcut.intern origin, ?_⟩
          dsimp only
          rw [intern_reroute shortcut.inside]

theorem commutes_resolveExports (home : ModuleId) (names : List String) :
    Commutes (Shortcut detour source imported id) (reroute · id (.internal detour.1) detour.2)
      (resolveExports home names) := by
  induction names with
  | nil => exact .pure _
  | cons name rest ih =>
      rw [resolveExports]
      exact (commutes_resolveExport? named _ name).bind fun _ => ih.bind fun _ => .pure _

theorem commutes_linkExports (home : ModuleId) :
    Commutes (Shortcut detour source imported id) (reroute · id (.internal detour.1) detour.2)
      (linkExports home) := by
  intro symbols _ after shortcut outcome
  have names := (shortcut.detours named).exportedNames home
  rw [linkExports_outcome] at outcome ⊢
  rw [names]
  cases result : (resolveExports home (symbols.exportedNames home)).outcome symbols with
  | mk answer middle =>
      rw [result] at outcome
      cases answer with
      | error fault => cases outcome
      | ok resolved =>
          cases outcome
          obtain ⟨shortcut, result'⟩ := commutes_resolveExports named home _ _ _ _ shortcut result
          rw [result']
          exact ⟨shortcut.setExports home resolved, rfl⟩

omit named in
theorem linkImport_found {origin : Origin}
    (kind : (symbols.declarationAt id).kind = .imported source name none)
    (found : symbols.declarationOrigin? id = .ok (some origin)) :
    (linkImport id).outcome symbols =
      (.ok (), (symbols.intern origin).2.setTarget id (symbols.intern origin).1) := by
  cases entry : symbols.declarationAt id with
  | mk _ _ _ _ _ =>
      rw [entry] at kind
      cases kind
      simp only [linkImport, Step.outcome_bind, Step.outcome_get, entry, Step.outcome_ofExcept, found,
        Step.outcome_set]

theorem commutes_linkImport (other : DeclId) :
    Commutes (Shortcut detour source imported id) (reroute · id (.internal detour.1) detour.2)
      (linkImport other) := by
  intro symbols _ after shortcut outcome
  have detours := shortcut.detours named
  rcases Graph.linkImport_outcome symbols other with
    ⟨same, linked⟩ | ⟨fault, same⟩ | ⟨source', name, origin, unlinked, found, same⟩
  · cases outcome.symm.trans same
    refine ⟨shortcut, idle_linkImport fun source' name unlinked => ?_⟩
    rcases detours.kind other with kind | ⟨-, target, kind, rerouted⟩
    · exact linked _ _ (kind.symm.trans unlinked)
    · cases rerouted.symm.trans unlinked
      exact linked _ _ kind
  · cases outcome.symm.trans same
  · cases outcome.symm.trans same
    refine ⟨(shortcut.intern origin).setTarget _ _, ?_⟩
    have unlinked' : ∃ source name,
        ((symbols.reroute id (.internal detour.1) detour.2).declarationAt other).kind =
          .imported source name none := by
      rcases detours.kind other with kind | ⟨-, target, kind, rerouted⟩
      · exact ⟨_, _, kind.trans unlinked⟩
      · cases kind.symm.trans unlinked
        exact ⟨_, _, rerouted⟩
    obtain ⟨_, _, unlinked'⟩ := unlinked'
    dsimp only
    rw [linkImport_found unlinked' (detours.declarationOrigin?_ok found), intern_reroute shortcut.inside,
      setTarget_reroute]

omit named in
/-- A program that can be linked with the short way can be linked with the long one, with the same
    outcome. -/
theorem Shortcut.link_reroute (shortcut : Shortcut detour source imported id symbols)
    (named : detour.2 ≠ wholeModule) (linking : link.outcome symbols = (.ok (), after)) :
    link.outcome (symbols.reroute id (.internal detour.1) detour.2) =
      (.ok (), after.reroute id (.internal detour.1) detour.2) := by
  have declarations : (symbols.reroute id (.internal detour.1) detour.2).declarationIds =
      symbols.declarationIds := by
    rw [declarationIds, reroute, modifyDeclaration, Array.size_modify]
    rfl
  rw [link_outcome] at linking ⊢
  rw [declarations]
  cases imports : (symbols.declarationIds.forM linkImport).outcome symbols with
  | mk answer middle =>
      rw [imports] at linking
      cases answer with
      | error fault => cases linking
      | ok _ =>
          obtain ⟨shortcut, imports'⟩ :=
            Commutes.forM (fun other _ => commutes_linkImport named other) _ _ _ shortcut imports
          rw [imports']
          exact (Commutes.forM (fun other _ => commutes_linkExports named other) _ _ _ shortcut linking).2

end Symbols

end Bundler
