import KeypadCalc.Proofs.Outcome
import KeypadCalc.Proofs.Text.Ending
import KeypadCalc.Settings
import Mathlib.Data.List.Induction

/-!
# KeypadCalc — the origins that are resolved

The form of an origin is what stands in front of the slashes at its end (`FormOf`). The origins are
gone through one by one, and `Collects` says what has been found on the way: the forms of the
origins so far, each behind those that came up before it. One more origin keeps it so
(`Collects.add`), hence all of them do (`collects_resolvedOrigins`).

* **`resolved_are_forms_in_order`** — the resolved origins are the forms of the origins that are
  set, each once, in the order in which they first come up.
* **`resolution_is_final_iff`** — resolving once more changes nothing, and no resolved origin is
  empty, unless an origin is slashes alone. It is not empty when it is looked at, and its form is.
-/

namespace KeypadCalc.Settings

/-! ## The form of an origin -/

/-- An origin is its form with slashes behind, and the form does not end in one. -/
structure FormOf (form origin : String) : Prop where
  slashes : ∃ count, origin.toList = form.toList ++ List.replicate count '/'
  bare : form.toList.getLast? ≠ some '/'

theorem toList_dropFinalSlashes (s : String) :
    (dropFinalSlashes s).toList = s.toList.rdropWhile (· == '/') :=
  String.toList_ofList

/-- Without its final slashes an origin is a form of itself. -/
theorem formOf_dropFinalSlashes (origin : String) : FormOf (dropFinalSlashes origin) origin := by
  obtain ⟨count, horigin⟩ := Text.exists_rdropWhile_append '/' origin.toList
  constructor
  · exact ⟨count, by rw [toList_dropFinalSlashes, horigin]⟩
  · rw [toList_dropFinalSlashes]
    exact Text.getLast?_rdropWhile_ne '/' origin.toList

/-- Every origin has one form. -/
theorem formOf_iff {form origin : String} :
    FormOf form origin ↔ form = dropFinalSlashes origin := by
  constructor
  · rintro ⟨⟨count, horigin⟩, hbare⟩
    refine String.toList_injective ?_
    rw [toList_dropFinalSlashes, horigin, Text.rdropWhile_append_replicate hbare]
  · rintro rfl
    exact formOf_dropFinalSlashes origin

/-- A form is its own form. -/
theorem dropFinalSlashes_of_bare {form : String} (h : form.toList.getLast? ≠ some '/') :
    dropFinalSlashes form = form := by
  have hself : FormOf form form := ⟨⟨0, (List.append_nil _).symm⟩, h⟩
  exact (formOf_iff.1 hself).symm

/-- Nothing is left of an origin that is slashes alone. -/
theorem formOf_empty_iff {origin : String} :
    FormOf "" origin ↔ ∀ c ∈ origin.toList, c = '/' := by
  rw [formOf_iff, eq_comm, ← String.toList_eq_nil_iff, toList_dropFinalSlashes,
    List.rdropWhile_eq_nil_iff]
  exact forall₂_congr fun c _ => beq_iff_eq

/-! ## One more origin -/

theorem addOrigin_empty (found : List String) : addOrigin found "" = found := rfl

theorem addOrigin_of_mem {found : List String} {origin : String}
    (h : dropFinalSlashes origin ∈ found) : addOrigin found origin = found := by
  rw [addOrigin, if_pos (List.contains_iff_mem.2 h), ite_self]

theorem addOrigin_of_not_mem {found : List String} {origin : String} (hne : origin ≠ "")
    (h : dropFinalSlashes origin ∉ found) :
    addOrigin found origin = found ++ [dropFinalSlashes origin] := by
  have hnonempty : ¬ origin.isEmpty = true := by simpa using hne
  rw [addOrigin, if_neg hnonempty, if_neg fun hseen => h (List.contains_iff_mem.1 hseen)]

/-! ## The forms found -/

/-- The origins that are set: those of the list and then the one of the front end, without the empty
ones. -/
def namedOrigins (s : Settings) : List String :=
  (s.corsOrigins ++ s.frontendOrigin.toList).filter (· ≠ "")

/-- A form comes up before another one: some first origins have it and not yet the other. -/
def ComesBefore (origins : List String) (form other : String) : Prop :=
  ∃ front, front <+: origins ∧ (∃ origin ∈ front, FormOf form origin) ∧
    ∀ origin ∈ front, ¬ FormOf other origin

theorem ComesBefore.ne {origins : List String} {form other : String}
    (h : ComesBefore origins form other) : form ≠ other := by
  rintro rfl
  obtain ⟨front, -, ⟨origin, hmem, hform⟩, hnone⟩ := h
  exact hnone origin hmem hform

theorem ComesBefore.append {origins : List String} {form other : String}
    (h : ComesBefore origins form other) (more : List String) :
    ComesBefore (origins ++ more) form other := by
  obtain ⟨front, hfront, hform, hnone⟩ := h
  exact ⟨front, hfront.trans (List.prefix_append origins more), hform, hnone⟩

/-- What is found are the forms of the origins, in the order in which they come up. -/
structure Collects (origins found : List String) : Prop where
  mem_iff : ∀ form, form ∈ found ↔ ∃ origin ∈ origins, FormOf form origin
  ordered : found.Pairwise (ComesBefore origins)

namespace Collects

variable {origins found : List String}

theorem nodup (h : Collects origins found) : found.Nodup :=
  h.ordered.imp ComesBefore.ne

theorem bare (h : Collects origins found) {form : String} (hmem : form ∈ found) :
    form.toList.getLast? ≠ some '/' := by
  obtain ⟨origin, -, hform⟩ := (h.mem_iff form).1 hmem
  exact hform.bare

/-- One more origin adds its form behind those found, unless it is one of them. -/
theorem add (h : Collects origins found) {origin : String} (hne : origin ≠ "") :
    Collects (origins ++ [origin]) (addOrigin found origin) := by
  have hmem : ∀ form, (∃ o ∈ origins ++ [origin], FormOf form o) ↔
      form ∈ found ∨ form = dropFinalSlashes origin := by
    intro form
    rw [h.mem_iff, ← formOf_iff]
    simp only [List.mem_append, List.mem_singleton, or_and_right, exists_or, exists_eq_left]
  have hordered : found.Pairwise (ComesBefore (origins ++ [origin])) :=
    h.ordered.imp fun hbefore => hbefore.append [origin]
  by_cases hseen : dropFinalSlashes origin ∈ found
  · rw [addOrigin_of_mem hseen]
    refine ⟨fun form => ?_, hordered⟩
    rw [hmem, or_iff_left_of_imp]
    rintro rfl
    exact hseen
  · rw [addOrigin_of_not_mem hne hseen]
    refine ⟨fun form => ?_, List.pairwise_append.2 ⟨hordered, List.pairwise_singleton _ _, ?_⟩⟩
    · rw [hmem, List.mem_append, List.mem_singleton]
    · intro form hform other hother
      rw [List.mem_singleton.1 hother]
      -- the origins so far have every form found, and the new one is not found
      exact ⟨origins, List.prefix_append _ _, (h.mem_iff form).1 hform,
        fun o ho hold => hseen ((h.mem_iff _).2 ⟨o, ho, hold⟩)⟩

end Collects

/-- Going through origins collects the forms of those that are not empty. Induction on the list from
its end, where each origin is added. -/
theorem collects_foldl (origins : List String) :
    Collects (origins.filter (· ≠ "")) (origins.foldl addOrigin []) := by
  induction origins using List.reverseRecOn with
  | nil => exact ⟨fun form => by simp, .nil⟩
  | append_singleton origins origin ih =>
    rw [List.foldl_append, List.foldl_cons, List.foldl_nil, List.filter_append]
    by_cases h : origin = ""
    · rw [h, addOrigin_empty, List.filter_cons_of_neg (by simp), List.filter_nil, List.append_nil]
      exact ih
    · rw [List.filter_cons_of_pos (by simpa using h), List.filter_nil]
      exact ih.add h

/-- The origins of settings are collected from those that are named. -/
theorem collects_resolvedOrigins (s : Settings) : Collects s.namedOrigins s.resolvedOrigins :=
  collects_foldl _

/-- **The resolved origins are the forms of the origins that are set**, those of the list and then
the one of the front end: no two are equal, none ends in a slash, an origin that is not empty has
its form among them and they are forms of such origins alone, and they stand in the order in which
they first come up. -/
theorem resolved_are_forms_in_order (s : Settings) :
    s.resolvedOrigins.Nodup ∧
      (∀ form ∈ s.resolvedOrigins, form.toList.getLast? ≠ some '/') ∧
      (∀ form, form ∈ s.resolvedOrigins ↔ ∃ origin ∈ s.namedOrigins, FormOf form origin) ∧
      s.resolvedOrigins.Pairwise (ComesBefore s.namedOrigins) := by
  have h := collects_resolvedOrigins s
  exact ⟨h.nodup, fun _ => h.bare, h.mem_iff, h.ordered⟩

example :
    resolvedOrigins { corsOrigins := ["b/", "", "a", "b", "//"], frontendOrigin := some "a/" } =
      ["b", "a", ""] := by
  decide

/-! ## Resolving once more -/

/-- The settings with a list of origins, and none of the front end. -/
def withOrigins (s : Settings) (origins : List String) : Settings :=
  { s with corsOrigins := origins, frontendOrigin := none }

/-- Forms, each once, are resolved to themselves, but for the empty one. -/
theorem foldl_addOrigin_of_bare {forms : List String} (hnodup : forms.Nodup)
    (hbare : ∀ form ∈ forms, form.toList.getLast? ≠ some '/') :
    forms.foldl addOrigin [] = forms.filter (· ≠ "") := by
  induction forms using List.reverseRecOn with
  | nil => rfl
  | append_singleton forms form ih =>
    obtain ⟨hforms, -, hapart⟩ := List.nodup_append.1 hnodup
    have hfront := ih hforms fun f hf => hbare f (List.mem_append_left _ hf)
    rw [List.foldl_append, hfront, List.foldl_cons, List.foldl_nil, List.filter_append]
    -- the empty form is the only one that is lost
    by_cases h : form = ""
    · rw [h, addOrigin_empty, List.filter_cons_of_neg (by simp), List.filter_nil, List.append_nil]
    · have hself := dropFinalSlashes_of_bare (hbare form (by simp))
      have hnew : dropFinalSlashes form ∉ forms.filter (· ≠ "") := by
        rw [hself]
        intro hmem
        exact hapart form (List.mem_of_mem_filter hmem) form (List.mem_singleton_self form) rfl
      rw [addOrigin_of_not_mem h hnew, hself, List.filter_cons_of_pos (by simpa using h),
        List.filter_nil]

theorem resolvedOrigins_withOrigins (s t : Settings) :
    (t.withOrigins s.resolvedOrigins).resolvedOrigins = s.resolvedOrigins.filter (· ≠ "") := by
  have h := collects_resolvedOrigins s
  have hagain : (t.withOrigins s.resolvedOrigins).resolvedOrigins =
      (s.resolvedOrigins ++ []).foldl addOrigin [] := rfl
  rw [hagain, List.append_nil]
  exact foldl_addOrigin_of_bare h.nodup fun _ => h.bare

/-- The empty text is resolved exactly from slashes alone. -/
theorem empty_mem_resolvedOrigins_iff (s : Settings) :
    "" ∈ s.resolvedOrigins ↔ ∃ origin ∈ s.namedOrigins, ∀ c ∈ origin.toList, c = '/' := by
  rw [(collects_resolvedOrigins s).mem_iff]
  exact exists_congr fun origin => and_congr_right fun _ => formOf_empty_iff

/-- **Resolving once more changes nothing and no resolved origin is empty, exactly if no origin is
slashes alone.** In any case the resolved origins are resolved to themselves without the empty one,
so the two go together. -/
theorem resolution_is_final_iff (s t : Settings) :
    (t.withOrigins s.resolvedOrigins).resolvedOrigins = s.resolvedOrigins.filter (· ≠ "") ∧
      ("" ∉ s.resolvedOrigins ↔ ∀ origin ∈ s.namedOrigins, ∃ c ∈ origin.toList, c ≠ '/') ∧
      ((t.withOrigins s.resolvedOrigins).resolvedOrigins = s.resolvedOrigins ↔
        ∀ origin ∈ s.namedOrigins, ∃ c ∈ origin.toList, c ≠ '/') := by
  have hagain := resolvedOrigins_withOrigins s t
  have hempty : "" ∉ s.resolvedOrigins ↔
      ∀ origin ∈ s.namedOrigins, ∃ c ∈ origin.toList, c ≠ '/' := by
    rw [empty_mem_resolvedOrigins_iff]
    push Not
    rfl
  refine ⟨hagain, hempty, ?_⟩
  -- resolving again only takes the empty form away
  rw [hagain, ← hempty, List.filter_eq_self]
  constructor
  · intro hall hmem
    simpa using hall "" hmem
  · intro hnot form hmem
    have hne : form ≠ "" := fun heq => hnot (heq ▸ hmem)
    simpa using hne

/-- A lone slash is not empty and is resolved to the empty text, and that is resolved to nothing. -/
theorem resolution_of_lone_slash :
    read { given := [("cors_origins", .array [.string "/"])] } = .ok { corsOrigins := ["/"] } ∧
      resolvedOrigins { corsOrigins := ["/"] } = [""] ∧
      (withOrigins {} (resolvedOrigins { corsOrigins := ["/"] })).resolvedOrigins = [] := by
  decide

end KeypadCalc.Settings
