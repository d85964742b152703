import Bundler.Proofs.Patch.Disjoint

/-! # What a patch makes of its requests

A patch is built up by requests, some of which it refuses.  A replacement is accepted exactly if it covers
some text of the source and meets none that was accepted earlier, so it is the set of accepted edits that
decides what the patch gives, and not their order.
-/

namespace Bundler

namespace Patch

/-- What a patch can be asked for. -/
inductive Request where
  | replace (edit : Edit)
  | remove (range : Range)
  | prepend (text : String)
  | append (text : String)

namespace Request

/-- Serves the request. -/
def step : Request → Step Patch Unit
  | replace edit => Graph.edit fun patch => patch.replace edit
  | remove range => Graph.edit fun patch => patch.remove range
  | prepend text => modify fun patch => patch.prepend text
  | append text => modify fun patch => patch.append text

/-- The edit that is asked for. A removal replaces its range by nothing. -/
def edit? : Request → Option Edit
  | replace edit => some edit
  | remove range => some { range, text := "" }
  | prepend _ => none
  | append _ => none

/-- The text that is to be put before the source. -/
def prepended? : Request → Option String
  | prepend text => some text
  | _ => none

/-- The text that is to be put after the source. -/
def appended? : Request → Option String
  | append text => some text
  | _ => none

end Request

/-- The patch after the requests, served or refused. -/
def after (patch : Patch) : List Request → Patch
  | [] => patch
  | request :: rest => ((request.step.outcome patch).2).after rest

/-- The edits that are asked for and not refused, in the order of the requests. -/
def accepted (patch : Patch) : List Request → List Edit
  | [] => []
  | request :: rest =>
    let later := ((request.step.outcome patch).2).accepted rest
    match (request.step.outcome patch).1, request.edit? with
    | .ok (), some edit => edit :: later
    | _, _ => later

variable {patch : Patch} {request : Request} {edit : Edit}

/-! ## One request -/

theorem Request.outcome_of_edit (asks : request.edit? = some edit) :
    request.step.outcome patch = (Graph.edit fun patch => patch.replace edit).outcome patch := by
  cases request with
  | replace other =>
      cases asks
      rfl
  | remove range =>
      cases asks
      rfl
  | prepend text => cases asks
  | append text => cases asks

/-- An edit that is accepted is stored, and nothing else changes. -/
theorem Request.outcome_accepted (orderly : Orderly patch.source patch.edits)
    (asks : request.edit? = some edit) (covers : edit.range.Covers patch.source)
    (free : ∀ other ∈ patch.edits, ¬ other.range.Meets edit.range) :
    request.step.outcome patch = (.ok (), { patch with edits := insertEdit edit patch.edits }) := by
  rw [outcome_of_edit asks]
  simp [Graph.edit, replace_accepts orderly covers free]

/-- An edit that is refused changes nothing. -/
theorem Request.outcome_refused (orderly : Orderly patch.source patch.edits)
    (asks : request.edit? = some edit)
    (unfit : ¬ (edit.range.Covers patch.source ∧
      ∀ other ∈ patch.edits, ¬ other.range.Meets edit.range)) :
    ∃ fault, request.step.outcome patch = (.error fault, patch) := by
  obtain ⟨fault, refused⟩ := replace_refuses orderly unfit
  rw [outcome_of_edit asks]
  exact ⟨fault, by simp [Graph.edit, refused]⟩

theorem Request.accepts_iff (orderly : Orderly patch.source patch.edits)
    (asks : request.edit? = some edit) :
    (request.step.outcome patch).1 = .ok () ↔
      edit.range.Covers patch.source ∧ ∀ other ∈ patch.edits, ¬ other.range.Meets edit.range := by
  by_cases fit : edit.range.Covers patch.source ∧ ∀ other ∈ patch.edits, ¬ other.range.Meets edit.range
  · simp only [outcome_accepted orderly asks fit.1 fit.2, true_iff]
    exact fit
  · obtain ⟨fault, refused⟩ := outcome_refused orderly asks fit
    simp [refused, fit]

theorem Request.unchanged {fault : Fault} (refused : (request.step.outcome patch).1 = .error fault) :
    (request.step.outcome patch).2 = patch := by
  cases asks : request.edit? with
  | some edit =>
      rw [outcome_of_edit asks] at refused ⊢
      cases result : patch.replace edit <;> simp_all [Graph.edit]
  | none => cases request <;> simp [step, edit?] at refused asks

/-! ## What requests add -/

/-- One patch is another one with some edits among its own, and with some texts around its own. -/
structure Grown (patch next : Patch) (edits : List Edit) (before after : List String) : Prop where
  source : next.source = patch.source
  orderly : Orderly next.source next.edits
  edits : next.edits.Perm (patch.edits ++ edits)
  intro : next.intro = String.join before.reverse ++ patch.intro
  outro : next.outro = patch.outro ++ String.join after

namespace Grown

theorem refl (orderly : Orderly patch.source patch.edits) : Grown patch patch [] [] [] where
  source := rfl
  orderly := orderly
  edits := by simp
  intro := by simp
  outro := by simp

theorem trans {next last : Patch} {edits more : List Edit} {before after before' after' : List String}
    (first : Grown patch next edits before after) (second : Grown next last more before' after') :
    Grown patch last (edits ++ more) (before ++ before') (after ++ after') where
  source := second.source.trans first.source
  orderly := second.orderly
  edits := by
    rw [← List.append_assoc]
    exact second.edits.trans (first.edits.append_right more)
  intro := by
    rw [second.intro, first.intro, List.reverse_append, String.join_append, String.append_assoc]
  outro := by
    rw [second.outro, first.outro, String.join_append, String.append_assoc]

end Grown

theorem accepted_cons (requests : List Request) :
    patch.accepted (request :: requests) =
      patch.accepted [request] ++ ((request.step.outcome patch).2).accepted requests := by
  simp only [accepted]
  split <;> rfl

/-- A request adds what it asks for, or nothing if it is refused. -/
theorem Request.grown (orderly : Orderly patch.source patch.edits) (request : Request) :
    Grown patch (request.step.outcome patch).2 (patch.accepted [request]) request.prepended?.toList
      request.appended?.toList := by
  cases asks : request.edit? with
  | some edit =>
      have around : request.prepended? = none ∧ request.appended? = none := by
        cases request <;> simp_all [edit?, prepended?, appended?]
      rw [around.1, around.2]
      by_cases fit : edit.range.Covers patch.source ∧
          ∀ other ∈ patch.edits, ¬ other.range.Meets edit.range
      · have served := outcome_accepted orderly asks fit.1 fit.2
        simp only [accepted, served, asks]
        exact {
          source := rfl
          orderly := orderly.insertEdit fit.1 fit.2
          edits := insertEdit_perm.trans (List.perm_append_singleton edit patch.edits).symm
          intro := by simp
          outro := by simp }
      · obtain ⟨fault, refused⟩ := outcome_refused orderly asks fit
        simp only [accepted, refused]
        exact .refl orderly
  | none =>
      have nothing : patch.accepted [request] = [] := by simp only [accepted, asks]; split <;> simp_all
      rw [nothing]
      cases request with
      | replace edit => cases asks
      | remove range => cases asks
      | prepend text =>
          exact {
            source := rfl
            orderly := orderly
            edits := by simp [step, Patch.prepend]
            intro := by simp [step, Patch.prepend, prepended?]
            outro := by simp [step, Patch.prepend, appended?] }
      | append text =>
          exact {
            source := rfl
            orderly := orderly
            edits := by simp [step, Patch.append]
            intro := by simp [step, Patch.append, prepended?]
            outro := by simp [step, Patch.append, appended?] }

/-- Requests add the edits that they get accepted, and all texts that they ask for. -/
theorem grown_after (orderly : Orderly patch.source patch.edits) (requests : List Request) :
    Grown patch (patch.after requests) (patch.accepted requests) (requests.filterMap (·.prepended?))
      (requests.filterMap (·.appended?)) := by
  induction requests generalizing patch with
  | nil => exact .refl orderly
  | cons request rest ih =>
      have first := request.grown orderly
      have later := ih first.orderly
      have both := first.trans later
      rw [← accepted_cons] at both
      have cons (f : Request → Option String) :
          (request :: rest).filterMap f = (f request).toList ++ rest.filterMap f := by
        cases known : f request <;> simp [known]
      rw [cons, cons]
      exact both

/-! ## The order of requests -/

/-- Edits that cover some text and do not meet are accepted, in whatever order they are asked for. -/
theorem accepted_all {requests : List Request} (orderly : Orderly patch.source patch.edits)
    (covered : ∀ edit ∈ requests.filterMap (·.edit?), edit.range.Covers patch.source)
    (apart : (patch.edits ++ requests.filterMap (·.edit?)).Pairwise fun first second =>
      ¬ first.range.Meets second.range) :
    patch.accepted requests = requests.filterMap (·.edit?) := by
  induction requests generalizing patch with
  | nil => rfl
  | cons request rest ih =>
      have first := request.grown orderly
      rw [accepted_cons]
      cases asks : request.edit? with
      | none =>
          have nothing : patch.accepted [request] = [] := by
            simp only [accepted, asks]
            split <;> simp_all
          rw [List.filterMap_cons_none asks] at covered apart ⊢
          rw [nothing, List.nil_append]
          have same : ((request.step.outcome patch).2).edits.Perm patch.edits := by
            simpa [nothing] using first.edits
          refine ih first.orderly (fun edit member => first.source ▸ covered edit member) ?_
          exact (same.append_right _).pairwise_iff (fun apart meets => apart meets.symm) |>.mpr apart
      | some edit =>
          rw [List.filterMap_cons_some asks] at covered apart ⊢
          have free : ∀ other ∈ patch.edits, ¬ other.range.Meets edit.range := fun other member =>
            (List.pairwise_append.mp apart).2.2 other member edit List.mem_cons_self
          have served := Request.outcome_accepted orderly asks (covered edit List.mem_cons_self) free
          have alone : patch.accepted [request] = [edit] := by simp only [accepted, served, asks]
          rw [alone, List.singleton_append]
          congr 1
          rw [alone] at first
          refine ih first.orderly
            (fun other member => first.source ▸ covered other (List.mem_cons_of_mem _ member)) ?_
          refine (first.edits.append_right _).pairwise_iff (fun apart meets => apart meets.symm)
            |>.mpr ?_
          simpa using apart

/-- Accepted edits and added texts determine the patch. -/
theorem Grown.unique {next other : Patch} {edits more : List Edit} {before after : List String}
    (first : Grown patch next edits before after) (second : Grown patch other more before after)
    (perm : edits.Perm more) : next = other := by
  have source : next.source = other.source := first.source.trans second.source.symm
  have edits : next.edits = other.edits :=
    first.orderly.eq_of_perm (source ▸ second.orderly)
      (first.edits.trans ((perm.append_left _).trans second.edits.symm))
  have intro : next.intro = other.intro := first.intro.trans second.intro.symm
  have outro : next.outro = other.outro := first.outro.trans second.outro.symm
  cases next
  cases other
  simp_all

/-- A patch accepts an edit exactly if it covers some text and meets no edit that was accepted before; it is
    unchanged by what it refuses; and it gives the source with the accepted edits made, between the added
    texts, whatever the order in which these edits were asked for. -/
theorem applies_accepted_edits (source : String) (requests : List Request) :
    -- What is accepted, and what becomes of the patch otherwise.
    (∀ (request : Request) (edit : Edit), request.edit? = some edit →
      ((request.step.outcome (after { source } requests)).1 = .ok () ↔
        edit.range.Covers source ∧
          ∀ earlier ∈ accepted { source } requests, ¬ earlier.range.Meets edit.range)) ∧
    (∀ (request : Request) (fault : Fault),
      (request.step.outcome (after { source } requests)).1 = .error fault →
        (request.step.outcome (after { source } requests)).2 = after { source } requests) ∧
    -- What the patch gives.
    (∃ output names,
      Edited 0 source (after { source } requests).apply.edits output names ∧
      (after { source } requests).apply.code =
        String.join (requests.filterMap (·.prepended?)).reverse ++ output ++
          String.join (requests.filterMap (·.appended?)) ∧
      (after { source } requests).apply.names = names) ∧
    (after { source } requests).apply.edits.Perm (accepted { source } requests) ∧
    (after { source } requests).apply.edits.Pairwise
      (fun first second => first.range.start < second.range.start) ∧
    -- Other requests for the same edits, with the same texts around them.
    ∀ others : List Request,
      others.filterMap (·.prepended?) = requests.filterMap (·.prepended?) →
      others.filterMap (·.appended?) = requests.filterMap (·.appended?) →
        ((others.filterMap (·.edit?)).Perm (accepted { source } requests) →
          accepted { source } others = others.filterMap (·.edit?)) ∧
        ((accepted { source } others).Perm (accepted { source } requests) →
          (after { source } others).apply = (after { source } requests).apply) := by
  have grown : Grown { source } _ _ _ _ := grown_after .nil requests
  have same : (accepted { source } requests).Perm (after { source } requests).edits := by
    simpa using grown.edits.symm
  have source_eq : (after { source } requests).source = source := grown.source
  have orderly : Orderly source (after { source } requests).edits := by
    simpa only [source_eq] using grown.orderly
  refine ⟨fun request edit asks => ?_, fun request fault refused => Request.unchanged refused, ?_,
    same.symm, orderly.start_lt, fun others before after => ⟨fun perm => ?_, fun perm => ?_⟩⟩
  · rw [Request.accepts_iff grown.orderly asks, source_eq]
    simp only [same.mem_iff]
  · obtain ⟨output, names, edited⟩ := orderly.edited (String.empty_append (s := source)).symm (by simp)
    rw [String.utf8ByteSize_empty] at edited
    refine ⟨output, names, edited, ?_, edited.renamings_eq source_eq rfl⟩
    rw [apply, grown.intro, grown.outro, source_eq]
    simp [edited.splice]
  · refine accepted_all .nil (fun edit member => orderly.covered edit ?_) ?_
    · exact same.mem_iff.mp (perm.mem_iff.mp member)
    · exact (perm.trans same).pairwise_iff (fun apart meets => apart meets.symm) |>.mpr orderly.apart
  · have other : Grown { source } _ _ _ _ := grown_after .nil others
    rw [before, after] at other
    rw [other.unique grown perm]

-- An edit that splits a character is refused and so is one that meets an earlier edit, but not one that
-- touches it.
example :
    (after { source := "é=1" }
      [.remove ⟨1, 2⟩, .replace { range := ⟨2, 3⟩, text := ":" }, .remove ⟨0, 3⟩, .remove ⟨0, 2⟩]).apply =
      { code := ":1", edits := [{ range := ⟨0, 2⟩, text := "" }, { range := ⟨2, 3⟩, text := ":" }],
        names := [] } := by
  decide

end Patch

end Bundler
