import JavaLint.Review.Html
import Mathlib.Data.List.Basic

/-! The template of a page. Braces that are doubled come out once, and the text that is put in the
place of a field comes out as it is, braces and all. A page is therefore made of the lines of its
head, those of its body and those behind it, joined by line breaks. -/
namespace JavaLint.Text

/-- A text as it has to stand in a template. -/
def doubled (text : List Char) : List Char :=
  text.flatMap fun c => if c = '\x7b' ∨ c = '\x7d' then [c, c] else [c]

def doubledLine (line : String) : String := String.ofList (doubled line.toList)

theorem doubledLine_append (line other : String) :
    doubledLine (line ++ other) = doubledLine line ++ doubledLine other := by
  simp [doubledLine, doubled]

theorem eq_doubledLine_ofList {chars others : List Char} (h : doubled chars = others) :
    String.ofList others = doubledLine (String.ofList chars) := by
  rw [doubledLine, String.toList_ofList, h]

theorem piecesFrom_character {c : Char} (hopen : c ≠ '\x7b') (hclose : c ≠ '\x7d')
    (rest : List Char) : piecesFrom none (c :: rest) = .character c :: piecesFrom none rest := by
  rw [piecesFrom.eq_def]
  split <;> simp_all

theorem piecesFrom_opening {c : Char} (h : c ≠ '\x7b') (rest : List Char) :
    piecesFrom none ('\x7b' :: c :: rest) = piecesFrom (some []) (c :: rest) := by
  rw [piecesFrom.eq_def]
  split <;> grind

theorem piecesFrom_doubled (text rest : List Char) :
    piecesFrom none (doubled text ++ rest) = text.map .character ++ piecesFrom none rest := by
  induction text with
  | nil => rfl
  | cons c text ih =>
    rw [doubled, List.flatMap_cons, List.append_assoc, ← doubled]
    by_cases hopen : c = '\x7b'
    · subst hopen
      simp [piecesFrom, ih]
    · by_cases hclose : c = '\x7d'
      · subst hclose
        simp [piecesFrom, ih]
      · simp [hopen, hclose, piecesFrom_character hopen hclose, ih]

theorem piecesFrom_name {name : List Char} (h : '\x7d' ∉ name) (read rest : List Char) :
    piecesFrom (some read) (name ++ '\x7d' :: rest) =
      .field (String.ofList (read ++ name)) :: piecesFrom none rest := by
  induction name generalizing read with
  | nil => simp [piecesFrom]
  | cons c name ih =>
    rw [List.mem_cons, not_or] at h
    rw [List.cons_append, piecesFrom, ih h.2, List.append_assoc, List.singleton_append]
    exact fun hc => h.1 hc.symm

/-- Nothing but the field is replaced, and what replaces it is not read again. -/
theorem fillTemplate_doubled (field : String → List Char) (before after : List Char) {c : Char}
    {name : List Char} (hc : c ≠ '\x7b') (hn : '\x7d' ∉ c :: name) :
    fillTemplate field (doubled before ++ ('\x7b' :: c :: name ++ '\x7d' :: doubled after)) =
      before ++ field (String.ofList (c :: name)) ++ after := by
  have hopen : piecesFrom none ('\x7b' :: c :: name ++ '\x7d' :: doubled after) =
      piecesFrom (some []) (c :: name ++ '\x7d' :: doubled after) :=
    piecesFrom_opening hc _
  have hliteral (text : List Char) :
      (text.map Piece.character).flatMap (Piece.fill field) = text := by
    rw [List.flatMap_map]
    exact List.flatMap_singleton' text
  have hafter : piecesFrom none (doubled after) = after.map .character := by
    simpa [piecesFrom] using piecesFrom_doubled after []
  rw [fillTemplate, piecesFrom_doubled, hopen, piecesFrom_name hn, hafter, List.flatMap_append,
    List.flatMap_cons, hliteral, hliteral, List.append_assoc]
  rfl

theorem toList_joinLines_append {lines others : List String} (h : lines ≠ []) (ho : others ≠ []) :
    (joinLines (lines ++ others)).toList =
      (joinLines lines).toList ++ '\n' :: (joinLines others).toList := by
  induction lines with
  | nil => exact (h rfl).elim
  | cons line lines ih =>
    cases lines with
    | nil =>
      obtain ⟨other, others, rfl⟩ := List.exists_cons_of_ne_nil ho
      simp [joinLines, String.intercalate_cons_cons]
    | cons next lines =>
      have hrest := ih (by simp)
      simp only [joinLines, List.cons_append, String.intercalate_cons_cons, String.toList_append,
        List.append_assoc] at hrest ⊢
      rw [hrest]

theorem toList_joinLines_doubled (lines : List String) :
    (joinLines (lines.map doubledLine)).toList = doubled (joinLines lines).toList := by
  induction lines with
  | nil => rfl
  | cons line lines ih =>
    cases lines with
    | nil => simp [joinLines, doubledLine]
    | cons next lines =>
      simp only [joinLines, doubledLine, List.map_cons, String.intercalate_cons_cons,
        String.toList_append, String.toList_ofList] at ih ⊢
      rw [ih]
      simp [doubled]

end JavaLint.Text

namespace JavaLint.Review

open Text

def htmlHead : List String :=
  ["<!DOCTYPE html>",
   "<html lang=\"en\">",
   "<head>",
   "<meta charset=\"utf-8\">",
   "<title>Code Analysis Report</title>",
   "<style>",
   "  body \x7b font-family: -apple-system, BlinkMacSystemFont, 'Segoe UI', Roboto, " ++
     "sans-serif; margin: 2rem; color: #212529; \x7d",
   "  h1 \x7b color: #343a40; \x7d",
   "  .summary \x7b background: #f8f9fa; padding: 1rem; border-radius: 6px; " ++
     "margin-bottom: 1.5rem; \x7d",
   "  .badge \x7b display: inline-block; padding: 2px 8px; border-radius: 4px; color: #fff; " ++
     "font-size: 0.85em; font-weight: 600; \x7d",
   "  table \x7b border-collapse: collapse; width: 100%; margin-bottom: 1.5rem; \x7d",
   "  th, td \x7b text-align: left; padding: 6px 12px; " ++
     "border-bottom: 1px solid #dee2e6; \x7d",
   "  th \x7b background: #e9ecef; \x7d",
   "  .issue \x7b margin-bottom: 0.75rem; \x7d",
   "  footer \x7b margin-top: 2rem; color: #6c757d; font-size: 0.85em; \x7d",
   "</style>",
   "</head>",
   "<body>"]

def htmlFoot : List String := ["</body>", "</html>", ""]

theorem htmlTemplate_eq :
    htmlTemplate =
      htmlHead.map doubledLine ++ ["\x7bbody\x7d"] ++ htmlFoot.map doubledLine := by
  rw [htmlTemplate, htmlHead, htmlFoot]
  simp only [List.map_cons, List.map_nil, List.cons_append, List.nil_append, doubledLine_append]
  -- Line by line, since the characters of a line are at hand but those of the page are not.
  repeat' first | apply congrArg₂ List.cons | apply congrArg₂ HAppend.hAppend
  all_goals first | with_reducible rfl | exact eq_doubledLine_ofList (by decide +kernel)

theorem htmlHead_ne_nil : htmlHead ≠ [] := List.cons_ne_nil _ _

theorem htmlFoot_ne_nil : htmlFoot ≠ [] := List.cons_ne_nil _ _

theorem htmlBody_ne_nil (review : Review) (limit : Int) : review.htmlBody limit ≠ [] := by
  simp [htmlBody]

/-- A page is its head, its body and its foot, line by line. -/
theorem html_eq_joinLines (review : Review) (limit : Int) :
    review.html limit = joinLines (htmlHead ++ review.htmlBody limit ++ htmlFoot) := by
  have htemplate : (joinLines htmlTemplate).toList =
      doubled ((joinLines htmlHead).toList ++ ['\n']) ++
        ('\x7b' :: 'b' :: ['o', 'd', 'y'] ++
          '\x7d' :: doubled ('\n' :: (joinLines htmlFoot).toList)) := by
    rw [htmlTemplate_eq, toList_joinLines_append (by simp) (by simp [htmlFoot_ne_nil]),
      toList_joinLines_append (by simp [htmlHead_ne_nil]) (by simp), toList_joinLines_doubled,
      toList_joinLines_doubled]
    simp [doubled, joinLines]
  rw [html, htemplate, fillTemplate_doubled _ _ _ (by decide) (by decide), ← String.toList_inj,
    String.toList_ofList, toList_joinLines_append (by simp [htmlHead_ne_nil]) htmlFoot_ne_nil,
    toList_joinLines_append htmlHead_ne_nil (review.htmlBody_ne_nil limit)]
  simp

end JavaLint.Review
