import Templating.Compile
import Templating.Proofs.Build.Order
import Templating.Proofs.Build.Reports
import Templating.Proofs.Markup.Reports

/-!
**The places of reports.**

Reports of missing end tags are passed on as they come up while the template is read: none is lost,
none is added, and their places stay as they are.  Since the spaces around a template are dropped
before it is read, the places are those in the text without them.

Main results:

* `Templating.Build.Builder.filter_problems_run` — reports of missing end tags are passed on;
* `Templating.Build.exists_compile_pointsInto` — **where the reports of a template point**;
* `Templating.Build.exists_misplaced_reports` — behind spaces, a report points in front of its tag.
-/

set_option autoImplicit false

namespace Templating

open Text

/-! ### Reports while a tree is built -/

namespace Build.Builder

/-- No report on the tree is one of a missing end tag. -/
theorem filter_eq_nil_of_allOnTree {ds : List Diagnostic} (h : AllOnTree ds) :
    ds.filter (·.LacksEndTag) = [] := by
  rw [List.filter_eq_nil_iff]
  intro d hd hlacks
  rcases of_decide_eq_true hlacks with hlacks | hlacks
  · rcases h d hd with htree | htree <;> rw [hlacks] at htree <;> cases htree
  · rcases h d hd with htree | htree <;> rw [hlacks] at htree <;> cases htree

theorem filter_problems_foldl (src : Source) (events : List Markup.Event) (b : Builder) :
    (events.foldl (step src) b).problems.filter (·.LacksEndTag) =
      b.problems.filter (·.LacksEndTag) ++
        (Markup.diagnostics events).filter (·.LacksEndTag) := by
  induction events generalizing b with
  | nil => exact (List.append_nil _).symm
  | cons event events ih =>
      rw [List.foldl_cons, ih]
      cases event with
      | token t =>
          obtain ⟨own, hown, htree⟩ := keeps_addToken src b t
          change (b.addToken src t).problems.filter _ ++ _ = _
          rw [hown, List.filter_append, filter_eq_nil_of_allOnTree htree, List.append_nil]
          rfl
      | problem d =>
          change (b.problems ++ [d]).filter _ ++ _ =
            _ ++ (d :: Markup.diagnostics events).filter _
          rw [List.filter_append, List.append_assoc, ← List.filter_append]
          rfl

/-- **Reports of missing end tags are passed on**, in their order. -/
theorem filter_problems_run (src : Source) (events : List Markup.Event) :
    (run src events).problems.filter (·.LacksEndTag) =
      (Markup.diagnostics events).filter (·.LacksEndTag) :=
  filter_problems_foldl src events {}

end Build.Builder

/-! ### Spaces around a template -/

/-- The text without the spaces around it stands behind the leading ones. -/
theorem Text.exists_append_trim (s : List Char) :
    ∃ tail, s = s.takeWhile isSpace ++ trim s ++ tail := by
  have hfront := List.takeWhile_append_dropWhile (p := isSpace) (l := s)
  have hback := List.takeWhile_append_dropWhile (p := isSpace) (l := (trimStart s).reverse)
  have hsplit : trimStart s = trim s ++ ((trimStart s).reverse.takeWhile isSpace).reverse := by
    rw [trim, trimEnd, ← List.reverse_append, hback, List.reverse_reverse]
  refine ⟨((trimStart s).reverse.takeWhile isSpace).reverse, ?_⟩
  rw [List.append_assoc, ← hsplit]
  exact hfront.symm

/-- A place in the text without the spaces around it, moved by the leading ones. -/
theorem Diagnostic.PointsInto.of_trim {s : List Char} {d : Diagnostic}
    (h : d.PointsInto (trim s) 0) : d.PointsInto s (bytes (s.takeWhile isSpace)) := by
  obtain ⟨name, start, stop, a, hmessage, hspan, hslice, hlooks⟩ := h
  refine ⟨name, start, stop, a, hmessage, hspan, ?_, hlooks⟩
  rw [Nat.zero_add, Nat.zero_add] at hslice
  obtain ⟨before, after, htrim, hstart, hstop⟩ := slice?_eq_some_iff.mp hslice
  obtain ⟨tail, hs⟩ := exists_append_trim s
  refine slice?_eq_some_iff.mpr ⟨s.takeWhile isSpace ++ before, after ++ tail, ?_, ?_, ?_⟩
  · rw [htrim] at hs
    simpa using hs
  · rw [bytes_append, hstart]
  · rw [bytes_append, ← hstop, Nat.add_assoc]

/-! ### Templates -/

namespace Build

/-- The reports of missing end tags of a template are those that come up while it is read. -/
theorem filter_problems_of_parse {settings : Settings} {template : String} {parsed : Parsed}
    (h : parse settings template = .ok parsed) :
    parsed.problems.filter (·.LacksEndTag) =
      (Markup.diagnostics (Markup.events settings template)).filter (·.LacksEndTag) := by
  unfold parse at h
  split at h
  · cases h
  · cases h
    exact Builder.filter_problems_run _ _

theorem exists_compile_filter_problems (settings : Settings) (template : String)
    (hdelimiters : ∀ opening closing, settings.customDelimiters = some (opening, closing) →
      opening ≠ "" ∧ closing ≠ "") :
    ∃ compiled, compile settings template = .ok compiled ∧
      compiled.problems.filter (·.LacksEndTag) =
        (Markup.diagnostics (Markup.events settings
          (String.ofList (trim template.toList)))).filter (·.LacksEndTag) := by
  obtain ⟨parsed, hparsed⟩ :=
    exists_parse settings (String.ofList (trim template.toList)) hdelimiters
  simp only [compile, compileTree, hparsed]
  refine ⟨_, rfl, ?_⟩
  rw [← filter_problems_of_parse hparsed]
  dsimp only
  split <;> rfl

/-- **Where the reports of a template point.**  The reports of missing end tags are those that come
up while the template is read without the spaces around it, and each of them points at a start tag
of the element that it names, once the leading spaces are added to its place. -/
theorem exists_compile_pointsInto (settings : Settings) (template : String)
    (hdelimiters : ∀ opening closing, settings.customDelimiters = some (opening, closing) →
      opening ≠ "" ∧ closing ≠ "") :
    ∃ compiled, compile settings template = .ok compiled ∧
      compiled.problems.filter (·.LacksEndTag) =
        (Markup.diagnostics (Markup.events settings
          (String.ofList (trim template.toList)))).filter (·.LacksEndTag) ∧
      ∀ d ∈ compiled.problems, d.LacksEndTag →
        d.PointsInto template.toList (bytes (template.toList.takeWhile isSpace)) := by
  obtain ⟨compiled, hcompiled, hfilter⟩ :=
    exists_compile_filter_problems settings template hdelimiters
  refine ⟨compiled, hcompiled, hfilter, fun d hd hlacks => ?_⟩
  have hmem : d ∈ compiled.problems.filter (·.LacksEndTag) :=
    List.mem_filter.mpr ⟨hd, decide_eq_true hlacks⟩
  rw [hfilter] at hmem
  have hpoints := Markup.pointsInto_events settings (String.ofList (trim template.toList)) d
    (List.mem_filter.mp hmem).1 hlacks
  rw [String.toList_ofList] at hpoints
  exact hpoints.of_trim

/-- An element that is never closed, and one that is closed by the end tag of another, behind a line
feed and a space. -/
theorem exists_compile_pointsInto_nested :
    ∃ compiled, compile Settings.web "\n <ul><li a>x</ul><b>" = .ok compiled ∧
      compiled.problems.filter (·.LacksEndTag) =
        [⟨.unmatchedEndTag, "tag <li> has no matching end tag.", some (.between 4 10)⟩,
          ⟨.unclosedTag, "tag <b> has no matching end tag.", some (.between 16 19)⟩] ∧
      ∀ d ∈ compiled.problems, d.LacksEndTag →
        d.PointsInto "\n <ul><li a>x</ul><b>".toList 2 := by
  obtain ⟨compiled, hcompiled, hfilter, hpoints⟩ :=
    exists_compile_pointsInto Settings.web "\n <ul><li a>x</ul><b>" (by simp [Settings.web])
  refine ⟨compiled, hcompiled, hfilter.trans (by decide +kernel), hpoints⟩

/-- A place at which there is no start tag. -/
theorem not_pointsInto_of_head? {source a : List Char} {shift start stop : Nat} {d : Diagnostic}
    (hspan : d.span = some (.between start stop))
    (hslice : slice? source (shift + start) (shift + stop) = some a) (ha : a.head? ≠ some '<') :
    ¬ d.PointsInto source shift := by
  rintro ⟨name, start', stop', a', -, hspan', hslice', hlooks⟩
  rw [hspan] at hspan'
  cases hspan'
  obtain rfl : a = a' := Option.some.inj (hslice.symm.trans hslice')
  obtain ⟨rest, rfl⟩ := hlooks.starts
  exact ha rfl

/-- A report that is made while a template is read, at a place without a start tag. -/
theorem exists_compile_not_pointsInto {template : String} {d : Diagnostic} {start stop : Nat}
    {a : List Char} (hspan : d.span = some (.between start stop))
    (hmem : d ∈ (Markup.diagnostics (Markup.events Settings.web
      (String.ofList (trim template.toList)))).filter (·.LacksEndTag))
    (hslice : slice? template.toList start stop = some a) (ha : a.head? ≠ some '<') :
    ∃ compiled, compile Settings.web template = .ok compiled ∧
      d ∈ compiled.problems ∧ ¬ d.PointsInto template.toList 0 := by
  obtain ⟨compiled, hcompiled, hfilter⟩ :=
    exists_compile_filter_problems Settings.web template (by simp [Settings.web])
  rw [← hfilter] at hmem
  refine ⟨compiled, hcompiled, (List.mem_filter.mp hmem).1, ?_⟩
  exact not_pointsInto_of_head? hspan (by simpa using hslice) ha

/-- **Reports that point in front of their tags**: behind a space, the place of a report is one byte
too early, for both kinds of reports. -/
theorem exists_misplaced_reports :
    (∃ compiled, compile Settings.web " <p>" = .ok compiled ∧
      ⟨.unclosedTag, "tag <p> has no matching end tag.", some (.between 0 3)⟩ ∈
        compiled.problems ∧
      ¬ Diagnostic.PointsInto " <p>".toList 0
        ⟨.unclosedTag, "tag <p> has no matching end tag.", some (.between 0 3)⟩) ∧
    ∃ compiled, compile Settings.web " <div><p></div>" = .ok compiled ∧
      ⟨.unmatchedEndTag, "tag <p> has no matching end tag.", some (.between 5 8)⟩ ∈
        compiled.problems ∧
      ¬ Diagnostic.PointsInto " <div><p></div>".toList 0
        ⟨.unmatchedEndTag, "tag <p> has no matching end tag.", some (.between 5 8)⟩ :=
  ⟨exists_compile_not_pointsInto rfl (by decide +kernel) (a := [' ', '<', 'p']) rfl (by decide),
    exists_compile_not_pointsInto rfl (by decide +kernel) (a := ['>', '<', 'p']) rfl (by decide)⟩

end Build

end Templating
