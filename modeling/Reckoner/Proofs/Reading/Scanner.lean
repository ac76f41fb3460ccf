import Mathlib.Data.List.DropRight
import Reckoner.Token

/-!
# Scanning

Tokens can be found in one pass that keeps the atom it is inside of.  The text
with its blanks and parentheses brought into order is the scanner's tokens with
single spaces between them, so splitting it gives the same tokens; and for the
scanner it is plain how the tokens of a text come from those of its parts.  The
laws of that leave no choice: they determine the tokens of every text.
-/

namespace Reckoner

namespace Token

def isBreak (c : Char) : Bool :=
  isParenthesis c || Text.isBlank c

/-- An atom that has ended; it is a token unless it is empty. -/
def flush (atom : List Char) : List (List Char) :=
  if atom.isEmpty then [] else [atom]

/-- The tokens of a text that follows the characters of an atom. -/
def scanFrom (atom : List Char) : List Char -> List (List Char)
  | [] => flush atom
  | c :: rest =>
      if isParenthesis c then flush atom ++ [c] :: scanFrom [] rest
      else if Text.isBlank c then flush atom ++ scanFrom [] rest
      else scanFrom (atom ++ [c]) rest

def scan (chars : List Char) : List (List Char) :=
  scanFrom [] chars

theorem isBlank_of_isParenthesis {c : Char} (h : isParenthesis c = true) :
    Text.isBlank c = false := by
  simp only [isParenthesis, Bool.or_eq_true, beq_iff_eq] at h
  rcases h with rfl | rfl <;> decide

/-! ## What a token is -/

/-- A token: a parenthesis by itself, or an atom, which is not empty and has no break in it. -/
def IsToken (piece : List Char) : Prop :=
  (∃ c, isParenthesis c = true ∧ piece = [c]) ∨ piece ≠ [] ∧ ∀ c ∈ piece, isBreak c = false

theorem isToken_of_mem_flush {atom piece : List Char} (hatom : ∀ c ∈ atom, isBreak c = false)
    (h : piece ∈ flush atom) : IsToken piece := by
  unfold flush at h
  split at h
  · cases h
  · rename_i hempty
    rw [List.mem_singleton.mp h]
    exact .inr ⟨by simpa using hempty, hatom⟩

theorem isToken_of_mem_scanFrom {atom piece chars : List Char}
    (hatom : ∀ c ∈ atom, isBreak c = false) (h : piece ∈ scanFrom atom chars) :
    IsToken piece := by
  induction chars generalizing atom with
  | nil => exact isToken_of_mem_flush hatom h
  | cons c rest ih =>
      unfold scanFrom at h
      split_ifs at h with hparenthesis hblank
      · simp only [List.mem_append, List.mem_cons] at h
        rcases h with h | rfl | h
        · exact isToken_of_mem_flush hatom h
        · exact .inl ⟨c, hparenthesis, rfl⟩
        · exact ih (by simp) h
      · rcases List.mem_append.mp h with h | h
        · exact isToken_of_mem_flush hatom h
        · exact ih (by simp) h
      · refine ih ?_ h
        simpa [or_imp, forall_and, isBreak, hparenthesis, hblank] using hatom

theorem isToken_of_mem_scan {piece chars : List Char} (h : piece ∈ scan chars) : IsToken piece :=
  isToken_of_mem_scanFrom (List.forall_mem_nil _) h

def IsSolid (piece : List Char) : Prop :=
  piece ≠ [] ∧ ∀ c ∈ piece, Text.isBlank c = false

theorem IsToken.isSolid {piece : List Char} (h : IsToken piece) : IsSolid piece := by
  rcases h with ⟨c, hparenthesis, rfl⟩ | ⟨hne, hbreak⟩
  · exact ⟨List.cons_ne_nil _ _, by simpa using isBlank_of_isParenthesis hparenthesis⟩
  · exact ⟨hne, fun c hc => (Bool.or_eq_false_iff.mp (hbreak c hc)).2⟩

theorem IsToken.eq_singleton {piece : List Char} (h : IsToken piece) {c : Char} (hc : c ∈ piece)
    (hparenthesis : isParenthesis c = true) : piece = [c] := by
  rcases h with ⟨d, -, rfl⟩ | ⟨-, hbreak⟩
  · rw [List.mem_singleton.mp hc]
  · rw [(Bool.or_eq_false_iff.mp (hbreak c hc)).1] at hparenthesis
    cases hparenthesis

/-! ## The text in order -/

theorem dropWhile_isBlank_collapseFrom (inRun : Bool) (chars : List Char) :
    (collapseFrom inRun chars).dropWhile Text.isBlank = collapseFrom true chars := by
  induction chars generalizing inRun with
  | nil => rfl
  | cons c rest ih =>
      unfold collapseFrom
      by_cases hblank : Text.isBlank c = true
      · cases inRun <;> simp [hblank, ih]
      · simp [hblank]

theorem rdropWhile_append {α : Type} (p : α -> Bool) (u v : List α) :
    (u ++ v).rdropWhile p =
      if (v.rdropWhile p).isEmpty then u.rdropWhile p else u ++ v.rdropWhile p := by
  simp only [List.rdropWhile, List.reverse_append, List.dropWhile_append, List.isEmpty_reverse]
  split_ifs <;> simp

theorem rdropWhile_isBlank_eq_self {atom : List Char}
    (hatom : ∀ c ∈ atom, Text.isBlank c = false) : atom.rdropWhile Text.isBlank = atom := by
  rw [List.rdropWhile_eq_self_iff]
  intro hne
  simpa using hatom _ (List.getLast_mem hne)

theorem intercalate_ne_nil {token : List Char} (h : token ≠ []) (tokens : List (List Char)) :
    [' '].intercalate (token :: tokens) ≠ [] := by
  cases tokens with
  | nil => simpa using h
  | cons _ _ => simp

/-- An atom and a blank before tokens with single spaces, up to blanks at the end. -/
theorem rdropWhile_flush {atom text : List Char} {tokens : List (List Char)}
    (hatom : ∀ c ∈ atom, Text.isBlank c = false) (htokens : ∀ token ∈ tokens, IsSolid token)
    (h : text.rdropWhile Text.isBlank = [' '].intercalate tokens) :
    (atom ++ if atom.isEmpty then text else ' ' :: text).rdropWhile Text.isBlank =
      [' '].intercalate (flush atom ++ tokens) := by
  by_cases hempty : atom = []
  · simpa [hempty, flush] using h
  · simp only [hempty, flush, List.isEmpty_iff, ↓reduceIte, List.singleton_append]
    rw [← List.singleton_append, rdropWhile_append, rdropWhile_append, h]
    cases tokens with
    | nil => simp [rdropWhile_isBlank_eq_self hatom, List.rdropWhile_singleton]
    | cons token tokens =>
        have hne := intercalate_ne_nil (htokens token List.mem_cons_self).1 tokens
        simp [hne]

theorem collapseFrom_space (inRun : Bool) (chars : List Char) :
    collapseFrom inRun (' ' :: chars) =
      if inRun then collapseFrom true chars else ' ' :: collapseFrom true chars := by
  simp [collapseFrom]

/--
Bringing a text into order, after an atom, gives the scanner's tokens with single spaces.

While an atom is unfinished no run of blanks has begun, and only then.
-/
theorem rdropWhile_collapseFrom_spaceOut {atom : List Char}
    (hatom : ∀ c ∈ atom, Text.isBlank c = false) (chars : List Char) :
    (atom ++ collapseFrom atom.isEmpty (spaceOut chars)).rdropWhile Text.isBlank =
      [' '].intercalate (scanFrom atom chars) := by
  induction chars generalizing atom with
  | nil =>
      have hself := rdropWhile_isBlank_eq_self hatom
      cases atom with
      | nil => rfl
      | cons c atom => simpa [collapseFrom, spaceOut, scanFrom, flush] using hself
  | cons c rest ih =>
      have hrest := ih (List.forall_mem_nil _)
      have hsolid : ∀ token ∈ scanFrom [] rest, IsSolid token := fun token htoken =>
        (isToken_of_mem_scan htoken).isSolid
      unfold scanFrom
      split_ifs with hparenthesis hblank
      · have hc := isBlank_of_isParenthesis hparenthesis
        have hspaced : spaceOut (c :: rest) = ' ' :: c :: ' ' :: spaceOut rest := by
          simp [spaceOut, hparenthesis]
        have hafter := rdropWhile_flush (List.forall_mem_singleton.mpr hc) hsolid hrest
        rw [hspaced, collapseFrom_space]
        refine rdropWhile_flush hatom ?_ ?_
        · exact List.forall_mem_cons.mpr ⟨⟨by simp, by simpa using hc⟩, hsolid⟩
        · rw [collapseFrom, if_neg (by simp [hc]), collapseFrom_space]
          exact hafter
      · have hspaced : spaceOut (c :: rest) = c :: spaceOut rest := by
          simp [spaceOut, hparenthesis]
        rw [hspaced, collapseFrom, if_pos hblank]
        exact rdropWhile_flush hatom hsolid hrest
      · have hspaced : spaceOut (c :: rest) = c :: spaceOut rest := by
          simp [spaceOut, hparenthesis]
        have hlonger : ∀ d ∈ atom ++ [c], Text.isBlank d = false := by
          simpa [or_imp, forall_and, hblank] using hatom
        have hafter := ih hlonger
        rw [show (atom ++ [c]).isEmpty = false by simp, List.append_assoc] at hafter
        rw [hspaced, collapseFrom, if_neg hblank]
        exact hafter

theorem normalize_eq_intercalate_scan (chars : List Char) :
    normalize chars = [' '].intercalate (scan chars) := by
  have h := rdropWhile_collapseFrom_spaceOut (List.forall_mem_nil _) chars
  rwa [List.nil_append, List.isEmpty_nil, ← dropWhile_isBlank_collapseFrom false] at h

theorem splitSpaces_eq_splitOn (chars : List Char) : splitSpaces chars = chars.splitOn ' ' := by
  induction chars with
  | nil => rfl
  | cons c rest ih =>
      rw [splitSpaces, List.splitOn_cons_eq_if_modifyHead, ih]
      cases hsplit : rest.splitOn ' ' with
      | nil => exact absurd hsplit (List.splitOn_ne_nil ' ' rest)
      | cons piece pieces => rfl

theorem tokenizeChars_eq_scan (chars : List Char) : tokenizeChars chars = scan chars := by
  have hsolid : ∀ token ∈ scan chars, IsSolid token := fun token htoken =>
    (isToken_of_mem_scan htoken).isSolid
  unfold tokenizeChars
  dsimp only
  rw [normalize_eq_intercalate_scan]
  cases htokens : scan chars with
  | nil => rfl
  | cons token tokens =>
      rw [htokens] at hsolid
      have hne := intercalate_ne_nil (hsolid token List.mem_cons_self).1 tokens
      have hspace : ∀ piece ∈ token :: tokens, ' ' ∉ piece := by
        intro piece hpiece hmem
        exact absurd ((hsolid piece hpiece).2 ' ' hmem) (by simp)
      rw [if_neg (by simpa using hne), splitSpaces_eq_splitOn,
        List.splitOn_intercalate ' ' hspace (by simp)]

/-! ## Parts of a text -/

theorem scanFrom_append_cons {c : Char} (h : isBreak c = true) (atom u v : List Char) :
    scanFrom atom (u ++ c :: v) = scanFrom atom u ++ scan (c :: v) := by
  induction u generalizing atom with
  | nil =>
      simp only [isBreak, Bool.or_eq_true] at h
      by_cases hparenthesis : isParenthesis c = true
      · simp [scan, scanFrom, hparenthesis, flush]
      · simp [scan, scanFrom, hparenthesis, h.resolve_left hparenthesis, flush]
  | cons d u ih =>
      rw [List.cons_append, scanFrom, scanFrom, ih, ih]
      split_ifs <;> simp

/-- A parenthesis or a blank separates the tokens before it from those after it. -/
theorem scan_append_cons {c : Char} (h : isBreak c = true) (u v : List Char) :
    scan (u ++ c :: v) = scan u ++ scan (c :: v) :=
  scanFrom_append_cons h [] u v

theorem scan_parenthesis_cons {c : Char} (h : isParenthesis c = true) (v : List Char) :
    scan (c :: v) = [c] :: scan v := by
  simp [scan, scanFrom, h, flush]

theorem scan_blank_cons {c : Char} (h : Text.isBlank c = true) (v : List Char) :
    scan (c :: v) = scan v := by
  have hparenthesis : isParenthesis c = false := by
    by_contra hc
    rw [isBlank_of_isParenthesis (by simpa using hc)] at h
    cases h
  simp [scan, scanFrom, h, hparenthesis, flush]

/-- Blanks before a text add no tokens. -/
theorem scan_blanks_append {blanks : List Char} (h : ∀ c ∈ blanks, Text.isBlank c = true)
    (v : List Char) : scan (blanks ++ v) = scan v := by
  induction blanks with
  | nil => rfl
  | cons c rest ih =>
      obtain ⟨hc, hrest⟩ := List.forall_mem_cons.mp h
      rw [List.cons_append, scan_blank_cons hc, ih hrest]

/-- Blanks between texts separate their tokens. -/
theorem scan_append_blanks {blanks : List Char} (hne : blanks ≠ [])
    (h : ∀ c ∈ blanks, Text.isBlank c = true) (u v : List Char) :
    scan (u ++ (blanks ++ v)) = scan u ++ scan v := by
  cases blanks with
  | nil => exact absurd rfl hne
  | cons c rest =>
      have hbreak : isBreak c = true := by simp [isBreak, h c List.mem_cons_self]
      rw [List.cons_append, scan_append_cons hbreak, ← List.cons_append, scan_blanks_append h]

theorem scanFrom_of_not_isBreak {atom chars : List Char}
    (h : ∀ c ∈ chars, isBreak c = false) : scanFrom atom chars = flush (atom ++ chars) := by
  induction chars generalizing atom with
  | nil => simp [scanFrom]
  | cons c rest ih =>
      obtain ⟨hc, hrest⟩ := List.forall_mem_cons.mp h
      simp only [isBreak, Bool.or_eq_false_iff] at hc
      simp [scanFrom, hc, ih hrest]

/-- Scanning drops the blanks and nothing else. -/
theorem flatten_scanFrom (atom chars : List Char) :
    (scanFrom atom chars).flatten = atom ++ chars.filter fun c => !Text.isBlank c := by
  have hflush : ∀ piece : List Char, (flush piece).flatten = piece := by
    intro piece
    cases piece <;> simp [flush]
  induction chars generalizing atom with
  | nil => simp [scanFrom, hflush]
  | cons c rest ih =>
      unfold scanFrom
      split_ifs with hparenthesis hblank
      · simp [hflush, ih, isBlank_of_isParenthesis hparenthesis]
      · simp [hflush, ih, hblank]
      · simp [ih, hblank]

end Token

/-! ## Tokens of source texts -/

theorem tokenize_eq_scan (source : String) :
    tokenize source = (Token.scan source.toList).map String.ofList := by
  rw [tokenize, Token.tokenizeChars_eq_scan]

/-- A parenthesis is a token, and separates the tokens before it from those after it. -/
theorem tokenize_append_parenthesis {c : Char} (h : Token.isParenthesis c = true) (u v : String) :
    tokenize (u ++ String.singleton c ++ v) =
      tokenize u ++ [String.singleton c] ++ tokenize v := by
  have hchars : (u ++ String.singleton c ++ v).toList = u.toList ++ c :: v.toList := by simp
  have hbreak : Token.isBreak c = true := by simp [Token.isBreak, h]
  rw [tokenize_eq_scan, hchars, Token.scan_append_cons hbreak, Token.scan_parenthesis_cons h]
  simp [tokenize_eq_scan]

theorem tokenize_enclosed (source : String) :
    tokenize ("(" ++ source ++ ")") = "(" :: (tokenize source ++ [")"]) := by
  have hchars : ("(" ++ source ++ ")").toList = '(' :: (source.toList ++ ')' :: []) := by simp
  rw [tokenize_eq_scan, hchars, Token.scan_parenthesis_cons (by decide),
    Token.scan_append_cons (by decide), Token.scan_parenthesis_cons (by decide), tokenize_eq_scan]
  simp [Token.scan, Token.scanFrom, Token.flush]

def IsGap (gap : String) : Prop :=
  ∀ c ∈ gap.toList, Text.isBlank c = true

theorem tokenize_gap_append {gap : String} (h : IsGap gap) (source : String) :
    tokenize (gap ++ source) = tokenize source := by
  rw [tokenize_eq_scan, String.toList_append, Token.scan_blanks_append h, tokenize_eq_scan]

theorem tokenize_append_gap {gap : String} (hne : gap ≠ "") (h : IsGap gap) (u v : String) :
    tokenize (u ++ gap ++ v) = tokenize u ++ tokenize v := by
  have hchars : (u ++ gap ++ v).toList = u.toList ++ (gap.toList ++ v.toList) := by simp
  have hblanks : gap.toList ≠ [] := by simpa using hne
  rw [tokenize_eq_scan, hchars, Token.scan_append_blanks hblanks h, List.map_append,
    tokenize_eq_scan, tokenize_eq_scan]

theorem tokenize_spaced (u v : String) : tokenize (u ++ " " ++ v) = tokenize u ++ tokenize v :=
  tokenize_append_gap (by decide) (by simp [IsGap]) u v

theorem tokenize_intercalate (texts : List String) :
    tokenize (" ".intercalate texts) = texts.flatMap tokenize := by
  induction texts with
  | nil => decide
  | cons text texts ih =>
      cases texts with
      | nil => simp
      | cons next texts =>
          rw [String.intercalate_cons_cons, tokenize_spaced, ih]
          rfl

/-- A text without parentheses and blanks is a token by itself. -/
theorem tokenize_atom {source : String} (hne : source.toList ≠ [])
    (h : ∀ c ∈ source.toList, Token.isBreak c = false) : tokenize source = [source] := by
  rw [tokenize_eq_scan, Token.scan, Token.scanFrom_of_not_isBreak h]
  simp [Token.flush, hne]

/-! ## The laws of cutting -/

/-- Cuts texts at blanks, which are dropped, and around parentheses, and nowhere else. -/
structure CutsTokens (cut : String -> List String) : Prop where
  gap : ∀ blanks, blanks ≠ "" -> IsGap blanks -> ∀ u v, cut (u ++ blanks ++ v) = cut u ++ cut v
  opening : ∀ u v, cut (u ++ "(" ++ v) = cut u ++ ["("] ++ cut v
  closing : ∀ u v, cut (u ++ ")" ++ v) = cut u ++ [")"] ++ cut v
  atom : ∀ {source : String}, source ≠ "" ->
    (∀ c ∈ source.toList, Token.isParenthesis c = false ∧ Text.isBlank c = false) ->
      cut source = [source]

theorem cutsTokens_tokenize : CutsTokens tokenize where
  gap := fun _ hne h => tokenize_append_gap hne h
  opening := tokenize_append_parenthesis (c := '(') (by decide)
  closing := tokenize_append_parenthesis (c := ')') (by decide)
  atom := by
    intro source hne h
    refine tokenize_atom (by simpa using hne) fun c hc => ?_
    exact Bool.or_eq_false_iff.mpr (h c hc)

namespace CutsTokens

variable {cut : String -> List String}

/-- The empty text has no tokens, since one gap is as good as two. -/
theorem cut_empty (h : CutsTokens cut) : cut "" = [] := by
  have hlong : cut "  " = cut "" ++ cut "" := h.gap "  " (by decide) (by simp [IsGap]) "" ""
  have hboth : cut "  " = cut "" ++ cut " " := h.gap " " (by decide) (by simp [IsGap]) "" " "
  have hshort : cut " " = cut "" ++ cut "" := h.gap " " (by decide) (by simp [IsGap]) "" ""
  rw [hboth, hshort, List.append_cancel_left_eq] at hlong
  simpa using hlong

theorem cut_flush (h : CutsTokens cut) {atom : List Char}
    (hatom : ∀ c ∈ atom, Token.isBreak c = false) :
    cut (String.ofList atom) = (Token.flush atom).map String.ofList := by
  unfold Token.flush
  split
  · rename_i hempty
    rw [List.isEmpty_iff.mp hempty]
    exact h.cut_empty
  · rename_i hempty
    refine h.atom ?_ ?_
    · simpa using hempty
    · intro c hc
      rw [String.toList_ofList] at hc
      exact Bool.or_eq_false_iff.mp (hatom c hc)

theorem cut_parenthesis (h : CutsTokens cut) {c : Char} (hc : Token.isParenthesis c = true)
    (u v : String) :
    cut (u ++ String.singleton c ++ v) = cut u ++ [String.singleton c] ++ cut v := by
  simp only [Token.isParenthesis, Bool.or_eq_true, beq_iff_eq] at hc
  rcases hc with rfl | rfl
  · exact h.opening u v
  · exact h.closing u v

/-- What obeys the laws cuts as the scanner does, from any atom on. -/
theorem cut_eq_scanFrom (h : CutsTokens cut) {atom : List Char}
    (hatom : ∀ c ∈ atom, Token.isBreak c = false) (chars : List Char) :
    cut (String.ofList (atom ++ chars)) = (Token.scanFrom atom chars).map String.ofList := by
  -- The scanner's atom has no break in it, so at its end the law of atoms applies.
  induction chars generalizing atom with
  | nil => simpa [Token.scanFrom] using h.cut_flush hatom
  | cons c rest ih =>
      have hrest := ih (List.forall_mem_nil _)
      have hparts : String.ofList (atom ++ c :: rest) =
          String.ofList atom ++ String.singleton c ++ String.ofList rest := by
        simp [← String.toList_inj]
      unfold Token.scanFrom
      split_ifs with hparenthesis hblank
      · rw [hparts, h.cut_parenthesis hparenthesis, h.cut_flush hatom]
        simp [← hrest]
      · have hgap : IsGap (String.singleton c) := by simpa [IsGap] using hblank
        rw [hparts, h.gap _ (by simp) hgap, h.cut_flush hatom, List.map_append, ← hrest,
          List.nil_append]
      · rw [List.append_cons]
        refine ih ?_
        simpa [or_imp, forall_and, Token.isBreak, hparenthesis, hblank] using hatom

theorem eq_tokenize (h : CutsTokens cut) : cut = tokenize := by
  funext source
  have hscan := h.cut_eq_scanFrom (List.forall_mem_nil _) source.toList
  rwa [List.nil_append, String.ofList_toList, ← Token.scan, ← tokenize_eq_scan] at hscan

end CutsTokens

/--
Bringing a text into order and splitting it finds the tokens that one pass over the
text finds.  Cutting at blanks and around parentheses has no other result: whatever
obeys the laws of cutting is this function.  A token is not empty, has no blank in it,
and has no parenthesis in it unless it is one; and the tokens one after the other are
the text without its blanks.
-/
theorem tokenize_scans_once :
    (∀ source, tokenize source = (Token.scan source.toList).map String.ofList) ∧
    (∀ cut, CutsTokens cut ↔ cut = tokenize) ∧
    (∀ source, ∀ token ∈ tokenize source,
      token ≠ "" ∧ (∀ c ∈ token.toList, Text.isBlank c = false) ∧
      (∀ c ∈ token.toList, Token.isParenthesis c = true -> token = String.singleton c)) ∧
    (∀ source, String.join (tokenize source) =
      String.ofList (source.toList.filter fun c => !Text.isBlank c)) := by
  refine ⟨tokenize_eq_scan, fun cut => ?_, fun source token hmem => ?_, fun source => ?_⟩
  · refine ⟨CutsTokens.eq_tokenize, ?_⟩
    rintro rfl
    exact cutsTokens_tokenize
  · rw [tokenize_eq_scan, List.mem_map] at hmem
    obtain ⟨piece, hpiece, rfl⟩ := hmem
    have htoken := Token.isToken_of_mem_scan hpiece
    obtain ⟨hne, hblank⟩ := htoken.isSolid
    rw [String.toList_ofList]
    refine ⟨by simpa using hne, hblank, fun c hc hparenthesis => ?_⟩
    rw [htoken.eq_singleton hc hparenthesis, String.singleton_eq_ofList]
  · have hjoined := Token.flatten_scanFrom [] source.toList
    rw [List.nil_append] at hjoined
    rw [tokenize_eq_scan, ← hjoined, ← String.toList_inj, String.toList_join]
    simp [List.flatMap_def, Token.scan]

/-- Blanks of several kinds around parentheses; a space of no width is not blank. -/
example : tokenize "\t((f\u3000\nx)\u200b )" = ["(", "(", "f", "x", ")", "\u200b", ")"] := by
  decide

end Reckoner
