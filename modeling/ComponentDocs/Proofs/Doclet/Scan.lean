import ComponentDocs.Proofs.Doclet.Place

/-!
# Scanning the lines of a description

The single pass over the lines finds the doclets and the prose that the lines are by their neighbours.

* `foldl_line_doclets`: the doclets that a pass adds, and what it adds to an open doclet;
* **`scan_doclets`**: the doclets found are those of the tag lines;
* `Follows`: what the pass knows of the lines it has read, **`follows_line`**: every line keeps it;
* `Follows.filled_line_kept`: the kept lines that are not blank are the prose lines;
* `scanned`: the pass over the first lines.
-/

namespace ComponentDocs.Doclet

open Text

/-! ## Values -/

theorem spaced_singleton (piece : List Char) : spaced [piece] = piece := by
  cases piece with
  | nil => rfl
  | cons c piece => rfl

theorem spaced_concat (pieces : List (List Char)) {piece : List Char} (hpiece : piece ≠ []) :
    spaced (pieces ++ [piece]) = if spaced pieces = [] then piece else spaced pieces ++ ' ' :: piece := by
  have hfilter : (pieces ++ [piece]).filter (fun piece => !piece.isEmpty) =
      pieces.filter (fun piece => !piece.isEmpty) ++ [piece] := by
    rw [List.filter_append]
    congr 1
    exact List.filter_cons_of_pos (by simpa using hpiece)
  have hnil : spaced pieces = [] ↔ pieces.filter (fun piece => !piece.isEmpty) = [] :=
    join_eq_nil_iff fun other hother => by simpa using (List.mem_filter.mp hother).2
  simp only [hnil]
  rw [spaced, hfilter, join_concat, spaced, List.append_assoc]
  rfl

theorem extend_spaced (tag : String) (pieces : List (List Char)) {piece : List Char} (hpiece : piece ≠ []) :
    extend ⟨tag, String.ofList (spaced pieces)⟩ piece = ⟨tag, String.ofList (spaced (pieces ++ [piece]))⟩ := by
  rw [spaced_concat pieces hpiece]
  by_cases h : spaced pieces = []
  · rw [if_pos h, h]
    rfl
  · have hvalue : String.ofList (spaced pieces) ≠ "" := fun hempty => h (String.ofList_injective hempty)
    simp only [extend, if_neg hvalue, if_neg h, Doclet.mk.injEq, true_and]
    rw [String.append_assoc, String.ofList_append, String.ofList_cons]
    rfl

theorem foldl_extend (tag : String) (pieces lines : List (List Char))
    (hlines : ∀ line ∈ lines, isBlankLine line = false) :
    lines.foldl (fun (doclet : Doclet) line => doclet.extend (trim line)) ⟨tag, String.ofList (spaced pieces)⟩ =
      ⟨tag, String.ofList (spaced (pieces ++ lines.map trim))⟩ := by
  induction lines generalizing pieces with
  | nil => rw [List.map_nil, List.append_nil]; rfl
  | cons line lines ih =>
    have hline : trim line ≠ [] := by
      rw [Ne, trim_eq_nil_iff, hlines line (List.mem_cons_self ..)]
      decide
    rw [List.foldl_cons, extend_spaced tag pieces hline, ih _ fun other hother =>
      hlines other (List.mem_cons_of_mem _ hother), List.append_assoc]
    rfl

/-! ## Doclets -/

section

variable {line : List Char} {lines : List (List Char)}

theorem docletAt_cons_zero (line : List Char) (lines : List (List Char)) : docletAt (line :: lines) 0 =
    (tagLine? line).map fun read =>
      ⟨String.ofList read.1, String.ofList (spaced (read.2 :: (lines.takeWhile goesOn).map trim))⟩ := rfl

theorem docletsOf_cons (line : List Char) (lines : List (List Char)) :
    docletsOf (line :: lines) = (docletAt (line :: lines) 0).toList ++ docletsOf lines := by
  have hshift : ∀ i, docletAt (line :: lines) (i + 1) = docletAt lines i := fun i => rfl
  rw [docletsOf, List.length_cons, List.range_succ_eq_map, List.filterMap_cons, List.filterMap_map]
  have htail : (List.range lines.length).filterMap (docletAt (line :: lines) ∘ Nat.succ) = docletsOf lines :=
    List.filterMap_congr fun i _ => hshift i
  rw [htail]
  cases docletAt (line :: lines) 0 <;> rfl

theorem docletsOf_cons_of_not_tag (h : isTagLine line = false) :
    docletsOf (line :: lines) = docletsOf lines := by
  have hnone : tagLine? line = none := by
    rwa [isTagLine, Option.isSome_eq_false_iff, Option.isNone_iff_eq_none] at h
  rw [docletsOf_cons, docletAt_cons_zero, hnone]
  rfl

/-- The doclets of a scan after lines that go on the last one, if it is open. -/
def Scan.extended (scan : Scan) (lines : List (List Char)) : List Doclet :=
  match scan.isOpen, scan.doclets with
  | true, doclet :: rest => lines.foldl (fun doclet line => doclet.extend (trim line)) doclet :: rest
  | _, doclets => doclets

theorem Scan.extended_nil (scan : Scan) : scan.extended [] = scan.doclets := by
  unfold Scan.extended
  split <;> simp_all

theorem Scan.line_of_tag (scan : Scan) {tag value : List Char} (h : tagLine? line = some (tag, value)) :
    scan.line line =
      { scan with doclets := ⟨String.ofList tag, String.ofList value⟩ :: scan.doclets, isOpen := true } := by
  rw [Scan.line, h]

theorem Scan.line_of_not_tag (scan : Scan) (h : isTagLine line = false) :
    scan.line line = if isBlankLine line then scan.blank line else scan.prose line := by
  rw [isTagLine, Option.isSome_eq_false_iff, Option.isNone_iff_eq_none] at h
  rw [Scan.line, h]

theorem Scan.blank_doclets (scan : Scan) (line : List Char) : (scan.blank line).doclets = scan.doclets := by
  unfold Scan.blank
  split <;> rfl

theorem Scan.blank_isOpen (scan : Scan) (line : List Char) : (scan.blank line).isOpen = false := by
  unfold Scan.blank
  split <;> rfl

theorem Scan.prose_isOpen (scan : Scan) (line : List Char) : (scan.prose line).isOpen = scan.isOpen := by
  unfold Scan.prose
  split <;> rfl

/-- A line that goes on a doclet is the first of the lines that extend the scan. -/
theorem Scan.extended_cons (scan : Scan) (line : List Char) (lines : List (List Char)) :
    (scan.prose line).extended lines = scan.extended (line :: lines) := by
  obtain ⟨doclets, kept, isOpen⟩ := scan
  cases isOpen with
  | false => rfl
  | true => cases doclets <;> rfl

theorem Scan.extended_of_closed {scan : Scan} (h : scan.isOpen = false) (lines : List (List Char)) :
    scan.extended lines = scan.doclets := by
  obtain ⟨doclets, kept, isOpen⟩ := scan
  change isOpen = false at h
  rw [h]
  rfl

/-- **The doclets of a pass**: those of its lines, last first, and before them those of the scan, the open
one with the first lines folded into it. -/
theorem foldl_line_doclets (scan : Scan) (lines : List (List Char)) :
    (lines.foldl Scan.line scan).doclets =
      (docletsOf lines).reverse ++ scan.extended (lines.takeWhile goesOn) := by
  induction lines generalizing scan with
  | nil => exact scan.extended_nil.symm
  | cons line lines ih =>
    rw [List.foldl_cons, ih]
    cases htag : isTagLine line with
    | true =>
      obtain ⟨⟨tag, value⟩, hread⟩ := Option.isSome_iff_exists.mp htag
      have hstop : ¬ goesOn line = true := by rw [goesOn_iff, htag]; simp
      have hdoclet : docletAt (line :: lines) 0 = some ⟨String.ofList tag,
          String.ofList (spaced ([value] ++ (lines.takeWhile goesOn).map trim))⟩ := by
        rw [docletAt_cons_zero, hread]
        rfl
      have hblank : ∀ other ∈ lines.takeWhile goesOn, isBlankLine other = false := fun other hother =>
        (goesOn_iff.mp (List.mem_takeWhile_imp hother)).1
      rw [List.takeWhile_cons_of_neg hstop, scan.extended_nil, docletsOf_cons, hdoclet, scan.line_of_tag hread,
        ← foldl_extend _ _ _ hblank, spaced_singleton, Option.toList_some, List.reverse_append,
        List.append_assoc]
      rfl
    | false =>
      rw [docletsOf_cons_of_not_tag htag, scan.line_of_not_tag htag]
      cases hblank : isBlankLine line with
      | true =>
        have hstop : ¬ goesOn line = true := by rw [goesOn_iff, hblank]; simp
        rw [if_pos rfl, List.takeWhile_cons_of_neg hstop, scan.extended_nil,
          Scan.extended_of_closed (scan.blank_isOpen line), scan.blank_doclets]
      | false =>
        rw [if_neg (by decide), List.takeWhile_cons_of_pos (goesOn_iff.mpr ⟨hblank, htag⟩), scan.extended_cons]

/-- **The doclets found are those of the tag lines.** -/
theorem scan_doclets (description : List Char) :
    (scan description).doclets.reverse = docletsOf (splitLines description) := by
  rw [scan, foldl_line_doclets, Scan.extended_of_closed rfl]
  change ((docletsOf _).reverse ++ []).reverse = _
  rw [List.append_nil, List.reverse_reverse]

end

/-! ## Kept lines -/

/-- What a scan knows of the lines it has read: whether they end in a doclet, and which of them are prose. -/
structure Follows (scan : Scan) (lines : List (List Char)) : Prop where
  isOpen : scan.isOpen = endsInDoclet lines
  hasDoclet : scan.isOpen = true → scan.doclets ≠ []
  filled_kept : filled scan.kept.reverse = proseOf lines
  mem_of_mem_kept : ∀ line ∈ scan.kept, line ∈ lines

theorem proseOf_concat (lines : List (List Char)) (line : List Char) : proseOf (lines ++ [line]) =
    proseOf lines ++ if goesOn line && !endsInDoclet lines then [line] else [] := by
  have hsame : ∀ i ∈ List.range lines.length, proseAt (lines ++ [line]) i = proseAt lines i := by
    intro i hi
    rw [List.mem_range] at hi
    rw [proseAt, proseAt, List.getElem?_append_left hi, List.take_append_of_le_length hi.le]
  have hlast : proseAt (lines ++ [line]) lines.length =
      if goesOn line && !endsInDoclet lines then some line else none := by
    rw [proseAt, List.getElem?_concat_length, List.take_left]
    rfl
  rw [proseOf, List.length_append, List.length_singleton, List.range_succ, List.filterMap_append,
    List.filterMap_congr hsame, List.filterMap_cons, hlast]
  congr 1
  split_ifs <;> rfl

theorem proseOf_concat_of_not_goesOn {lines : List (List Char)} {line : List Char} (h : goesOn line = false) :
    proseOf (lines ++ [line]) = proseOf lines := by
  rw [proseOf_concat, h]
  exact List.append_nil _

section

variable {scan : Scan} {lines : List (List Char)} {line : List Char}

/-- After a tag line a doclet is open, after a blank line none, and after another line as before it. -/
theorem Scan.line_isOpen (scan : Scan) (line : List Char) :
    (scan.line line).isOpen = (!isBlankLine line && (isTagLine line || scan.isOpen)) := by
  cases htag : isTagLine line with
  | true =>
    obtain ⟨⟨tag, value⟩, hread⟩ := Option.isSome_iff_exists.mp htag
    rw [scan.line_of_tag hread, isBlankLine_of_isTagLine htag]
    rfl
  | false =>
    rw [scan.line_of_not_tag htag]
    cases hblank : isBlankLine line with
    | true => exact scan.blank_isOpen line
    | false => exact scan.prose_isOpen line

theorem Scan.line_kept_of_tag (scan : Scan) (h : isTagLine line = true) : (scan.line line).kept = scan.kept := by
  obtain ⟨⟨tag, value⟩, hread⟩ := Option.isSome_iff_exists.mp h
  rw [scan.line_of_tag hread]

theorem Scan.line_kept_of_blank (scan : Scan) (h : isBlankLine line = true) :
    (scan.line line).kept = if scan.isOpen && scan.endsBlank then scan.kept else line :: scan.kept := by
  rw [scan.line_of_not_tag (not_isTagLine_of_isBlankLine h), if_pos h, Scan.blank]
  split <;> rfl

theorem Scan.line_kept_of_goesOn (hfollows : Follows scan lines) (h : goesOn line = true) :
    (scan.line line).kept = if scan.isOpen then scan.kept else line :: scan.kept := by
  obtain ⟨hblank, htag⟩ := goesOn_iff.mp h
  rw [scan.line_of_not_tag htag, hblank, if_neg (by decide), Scan.prose]
  cases hopen : scan.isOpen with
  | false => rfl
  | true =>
    obtain ⟨doclet, rest, hdoclets⟩ := List.exists_cons_of_ne_nil (hfollows.hasDoclet hopen)
    rw [hdoclets]
    rfl

theorem Follows.line_kept_eq_or (h : Follows scan lines) (line : List Char) :
    (scan.line line).kept = scan.kept ∨ (scan.line line).kept = line :: scan.kept := by
  cases htag : isTagLine line with
  | true => exact .inl (scan.line_kept_of_tag htag)
  | false =>
    cases hblank : isBlankLine line with
    | true =>
      rw [scan.line_kept_of_blank hblank]
      exact ite_eq_or_eq ..
    | false =>
      rw [Scan.line_kept_of_goesOn h (goesOn_iff.mpr ⟨hblank, htag⟩)]
      exact ite_eq_or_eq ..

/-- A doclet that is open after a line was opened by it or before it. -/
theorem Follows.line_hasDoclet (h : Follows scan lines) (hopen : (scan.line line).isOpen = true) :
    (scan.line line).doclets ≠ [] := by
  cases htag : isTagLine line with
  | true =>
    obtain ⟨⟨tag, value⟩, hread⟩ := Option.isSome_iff_exists.mp htag
    rw [scan.line_of_tag hread]
    exact List.cons_ne_nil _ _
  | false =>
    rw [scan.line_isOpen, htag, Bool.false_or, Bool.and_eq_true, Bool.not_eq_true'] at hopen
    obtain ⟨hblank, hopen⟩ := hopen
    obtain ⟨doclet, rest, hdoclets⟩ := List.exists_cons_of_ne_nil (h.hasDoclet hopen)
    rw [scan.line_of_not_tag htag, hblank, if_neg (by decide), Scan.prose, hopen, hdoclets]
    exact List.cons_ne_nil _ _

/-- Of the lines that are not blank the pass keeps the prose. -/
theorem Follows.filled_line_kept (h : Follows scan lines) (line : List Char) :
    filled (scan.line line).kept.reverse = proseOf (lines ++ [line]) := by
  cases htag : isTagLine line with
  | true =>
    have hgoes : goesOn line = false := by rw [goesOn, htag, Bool.not_true, Bool.and_false]
    rw [scan.line_kept_of_tag htag, proseOf_concat_of_not_goesOn hgoes, h.filled_kept]
  | false =>
    cases hblank : isBlankLine line with
    | true =>
      have hgoes : goesOn line = false := by rw [goesOn, hblank, Bool.not_true, Bool.false_and]
      rw [scan.line_kept_of_blank hblank, proseOf_concat_of_not_goesOn hgoes, ← h.filled_kept]
      split_ifs
      · rfl
      · rw [List.reverse_cons, filled_append, filled_cons_of_blank hblank]
        exact List.append_nil _
    | false =>
      have hgoes : goesOn line = true := goesOn_iff.mpr ⟨hblank, htag⟩
      rw [Scan.line_kept_of_goesOn h hgoes, h.isOpen, proseOf_concat, hgoes, ← h.filled_kept]
      cases endsInDoclet lines with
      | true => exact (List.append_nil _).symm
      | false =>
        rw [if_neg (by decide), List.reverse_cons, filled_append, filled_cons_of_not_blank hblank]
        rfl

/-- **Every line keeps what the scan knows.** -/
theorem follows_line (h : Follows scan lines) (line : List Char) : Follows (scan.line line) (lines ++ [line]) where
  isOpen := by rw [scan.line_isOpen, endsInDoclet_concat, h.isOpen]
  hasDoclet := h.line_hasDoclet
  filled_kept := h.filled_line_kept line
  mem_of_mem_kept other hother := by
    rw [List.mem_append, List.mem_singleton]
    rcases h.line_kept_eq_or line with hkept | hkept
    · exact .inl (h.mem_of_mem_kept other (hkept ▸ hother))
    · rw [hkept] at hother
      exact (List.mem_cons.mp hother).symm.imp_left (h.mem_of_mem_kept other)

theorem follows_start : Follows Scan.start [] := ⟨rfl, fun h => absurd h (by decide), rfl, by simp [Scan.start]⟩

theorem follows_foldl (lines : List (List Char)) : Follows (lines.foldl Scan.line Scan.start) lines := by
  induction lines using List.reverseRecOn with
  | nil => exact follows_start
  | append_singleton lines line ih =>
    rw [List.foldl_append, List.foldl_cons, List.foldl_nil]
    exact follows_line ih line

end

theorem follows_scan (description : List Char) : Follows (scan description) (splitLines description) :=
  follows_foldl _

/-! ## Passes over the first lines -/

/-- What a pass over lines knows after them. -/
abbrev scanned (lines : List (List Char)) : Scan := lines.foldl Scan.line Scan.start

theorem scanned_concat (lines : List (List Char)) (line : List Char) :
    scanned (lines ++ [line]) = (scanned lines).line line := by
  rw [scanned, List.foldl_append]
  rfl

end ComponentDocs.Doclet
