import Bundler.Proofs.Bundle.Lasting
import Bundler.Proofs.Bundle.Names
import Bundler.Proofs.Naming.Variants

/-! # Where names in a bundle come from

In every reachable state a name in the output is made of a name that is there for it.  So the text that
refers to a declaration is a variant of its name where it is declared, or is made of the name of the external
module that it comes from.
-/

namespace Bundler

namespace Symbols

variable {symbols : Symbols} {format : Format} {id : DeclId} {source : ExternalId} {name : String}

/-- An external module, or its default export, is referred to by the name of the module or the alias made
    of it. -/
theorem outputText_module (kind : (symbols.declarationAt id).kind = .provided source name)
    (whole : isNamed name = false) :
    symbols.outputText format id = (symbols.externalAt source).name ∨
      symbols.outputText format id = defaultAlias (symbols.externalAt source).name := by
  rw [Graph.outputText_provided kind, providedText]
  by_cases first : name = wholeModule
  · exact .inl (if_pos first)
  · have second : name = defaultExport := by simpa [isNamed, first] using whole
    rw [if_neg first, if_pos second]
    split
    · exact .inr rfl
    · exact .inl rfl

/-- What a CommonJS module reads from an external one is a property of it. -/
theorem outputText_property (kind : (symbols.declarationAt id).kind = .provided source name)
    (named : isNamed name = true) :
    symbols.outputText .cjs id = (symbols.externalAt source).name ++ "." ++ name := by
  simp only [isNamed, Bool.and_eq_true, bne_iff_ne, ne_eq] at named
  rw [Graph.outputText_provided kind, providedText, if_neg named.1, if_neg named.2]
  rfl

namespace Derived

variable (derived : symbols.Derived)

include derived

/-- What a module contributes is called by its name, or a variant. -/
theorem outputText_defined (defined : isDefined (symbols.declarationAt id) = true) :
    Variant (symbols.declarationAt id).name (symbols.outputText format id) := by
  have base : (symbols.declarationAt id).baseName = (symbols.declarationAt id).name := by
    rw [Declaration.baseName]
    split
    next kind => rw [isDefined, kind] at defined; cases defined
    next => rfl
  rw [Graph.outputText_contribution defined]
  cases given : (symbols.declarationAt id).outputName with
  | none => exact .same
  | some output => exact base ▸ derived.declaration given

/-- What a standard module imports by name is called by the name that it has outside, or a variant. -/
theorem outputText_binding (kind : (symbols.declarationAt id).kind = .provided source name)
    (named : isNamed name = true) : Variant name (symbols.outputText .es id) := by
  have base : (symbols.declarationAt id).baseName = name := by rw [Declaration.baseName, kind]
  simp only [isNamed, Bool.and_eq_true, bne_iff_ne, ne_eq] at named
  rw [Graph.outputText_provided kind, providedText, if_neg named.1, if_neg named.2,
    if_pos (show Format.es.isEs = true from rfl)]
  cases given : (symbols.declarationAt id).outputName with
  | none => exact .same
  | some output => exact base ▸ derived.declaration given

end Derived

end Symbols

namespace Graph

variable {graph : Graph}

theorem endures_derived : Endures Symbols.Derived where
  alike {graph other} alike derived := by
    have sizes := alike.sizes
    obtain ⟨s, rfl⟩ := alike
    constructor
    · intro id name named
      rw [declarationAt_select] at named ⊢
      exact derived.declaration named
    · intro id inside
      rw [externalAt_select]
      exact derived.external (Nat.lt_of_lt_of_eq inside sizes.2.2)
  named {graph} options sound derived := by
    have start : Naming.Derives graph.symbols
        ⟨graph.symbols, options.ownNames ++ graph.symbols.usedGlobals⟩ := ⟨.refl _, derived⟩
    have externals : Naming.Derives graph.symbols
        (graph.symbols.usedExternals.foldl (Naming.nameExternal options.format)
          ⟨graph.symbols, options.ownNames ++ graph.symbols.usedGlobals⟩) :=
      List.foldlRecOn _ _ start fun naming derives id used =>
        derives.nameExternal options.format fun binding among =>
          (sound.externals (has_usedExternal used)
            (Std.TreeMap.mem_toList_iff_getElem?_eq_some.mp among)).2
    have own : Naming.Derives graph.symbols
        ((graph.order.flatMap graph.symbols.contributions).foldl Naming.nameOwn
          (graph.symbols.usedExternals.foldl (Naming.nameExternal options.format)
            ⟨graph.symbols, options.ownNames ++ graph.symbols.usedGlobals⟩)) :=
      List.foldlRecOn _ _ externals fun naming derives id member => by
        obtain ⟨owner, -, among⟩ := List.mem_flatMap.mp member
        exact derives.nameOwn (mem_contributions.mp among).2.1
    exact own.derived

/-- In every reachable state the names in the output are made of names that are there for it. -/
theorem Reachable.derived (reachable : graph.Reachable) : graph.symbols.Derived :=
  reachable.lasts Symbols.Derived.lasting endures_derived (mentions_any _) fun made _ =>
    made.grown Symbols.Derived.growing fun _ _ _ _ => trivial

end Graph

end Bundler
