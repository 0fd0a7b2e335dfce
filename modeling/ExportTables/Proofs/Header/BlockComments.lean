import ExportTables.Proofs.Generate
import ExportTables.Proofs.Header.OnePass

/-!
# What a block comment is worth

A block comment is worth one space: where no comment is open in front of it, it can be replaced by a
space before any comment is removed. It may stand in a line comment, go over several lines, and
touch slashes and stars on either side or hold them at its ends. So what it says has no influence on
the names that a header exports, and none on the files that are generated from them.
-/

namespace ExportTables.Header

/-- A text with a block comment in it. -/
def withBlockComment (before body after : String) : String :=
  before ++ "/*" ++ body ++ "*/" ++ after

/-- The first pass already makes no difference between a block comment and a space. -/
theorem stripBlocks_append_blockComment {before body : List Char} (hbefore : BlocksClosed before)
    (hbody : ¬['*', '/'] <:+: body) (after : List Char) :
    stripBlocks false (before ++ '/' :: '*' :: (body ++ '*' :: '/' :: after)) =
      stripBlocks false (before ++ ' ' :: after) := by
  have hcloses : closesBlock body = false := by
    rwa [Bool.eq_false_iff, ne_eq, closesBlock_iff]
  calc stripBlocks false (before ++ '/' :: '*' :: (body ++ '*' :: '/' :: after))
      = stripBlocks false before ++
          stripBlocks false ('/' :: '*' :: (body ++ '*' :: '/' :: after)) :=
        stripBlocks_append (Or.inl hbefore) (.of_head?_ne (by simp))
    _ = stripBlocks false before ++ ' ' :: stripBlocks false after := by
        rw [stripBlocks_blockComment (splitBlock?_append hcloses after)]
    _ = stripBlocks false before ++ stripBlocks false (' ' :: after) := by
        rw [stripBlocks_cons fun hc => absurd hc (by decide)]
    _ = stripBlocks false (before ++ ' ' :: after) :=
        (stripBlocks_append (Or.inl hbefore) (.of_head?_ne (by simp))).symm

theorem stripComments_withBlockComment {before body : String} (hbefore : BlocksClosed before.toList)
    (hbody : ¬['*', '/'] <:+: body.toList) (after : String) :
    stripComments (withBlockComment before body after).toList =
      stripComments (before ++ " " ++ after).toList := by
  have hstrip := stripBlocks_append_blockComment hbefore hbody after.toList
  rw [withBlockComment, stripComments, stripComments]
  simp only [String.toList_append]
  rw [show "/*".toList = ['/', '*'] from rfl, show "*/".toList = ['*', '/'] from rfl,
    show " ".toList = [' '] from rfl]
  simpa using congrArg (stripLines false) hstrip

/-- A block comment counts as one space. With another body in its place, the header exports the same
names and every generated file has the same contents. -/
theorem blockComment_counts_as_space (before body after : String)
    (hbefore : BlocksClosed before.toList) (hbody : ¬['*', '/'] <:+: body.toList) :
    stripComments (withBlockComment before body after).toList =
        stripComments (before ++ " " ++ after).toList ∧
      ∀ other : String, ¬['*', '/'] <:+: other.toList →
        (∀ (rule : ExportRule) (source : String),
          (ofText rule source (withBlockComment before other after)).symbols =
            (ofText rule source (withBlockComment before body after)).symbols) ∧
        ∀ o : Options, o.filesFor (withBlockComment before other after) =
          o.filesFor (withBlockComment before body after) := by
  have hspace := stripComments_withBlockComment hbefore hbody after
  refine ⟨hspace, fun other hother => ?_⟩
  have hsame : ∀ (rule : ExportRule) (source : String),
      ofText rule source (withBlockComment before other after) =
        ofText rule source (withBlockComment before body after) := by
    intro rule source
    rw [ofText, ofText, hspace, stripComments_withBlockComment hbefore hother after]
  refine ⟨fun rule source => congrArg symbols (hsame rule source), fun o => ?_⟩
  rw [Options.filesFor, Options.filesFor, hsame]

/-- A comment that begins behind a slash, in a line comment, with a body that begins like an end and
ends in a star, and goes over to the next line. -/
theorem blockComment_counts_as_space_touching :
    let before := "/* a */MARKER // b /"
    let body := "/ c /* \n int prefix_a(void); **"
    let after := "/ d\n int prefix_b(void); */"
    BlocksClosed before.toList ∧ ¬['*', '/'] <:+: body.toList ∧ ¬['*', '/'] <:+: "".toList ∧
      stripComments (withBlockComment before body after).toList =
        stripComments (before ++ " " ++ after).toList ∧
      (ofText ⟨"MARKER", "prefix_"⟩ "test.h" (withBlockComment before "" after)).symbols =
        ["prefix_b"] ∧
      ({} : Options).filesFor (withBlockComment before "" after) =
        ({} : Options).filesFor (withBlockComment before body after) := by
  intro before body after
  have hbefore : BlocksClosed before.toList := by decide
  have hbody : ¬['*', '/'] <:+: body.toList := by decide
  have hempty : ¬['*', '/'] <:+: "".toList := by decide
  obtain ⟨hspace, hother⟩ := blockComment_counts_as_space before body after hbefore hbody
  obtain ⟨hsymbols, hfiles⟩ := hother "" hempty
  refine ⟨hbefore, hbody, hempty, hspace, ?_, hfiles {}⟩
  rw [hsymbols]
  decide +kernel

end ExportTables.Header
