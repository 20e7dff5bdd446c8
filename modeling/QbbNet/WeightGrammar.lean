import QbbNet.WeightFile

set_option autoImplicit false

/- The form of the lines in ecmpProbability.txt, and the weights that they stand for. -/
namespace QbbNet

def IsDecimal (tok : Line) : Prop := tok ≠ [] ∧ ∀ c ∈ tok, c.isDigit = true

/-- No number can be read: behind a sign there is no digit, or a number of more than 64 bits. -/
def Unreadable (tok : Line) : Prop :=
  let body := if tok.head? = some '+' ∨ tok.head? = some '-' then tok.tail else tok
  body.takeWhile Char.isDigit = [] ∨
    18446744073709551616 ≤ digitsValue (body.takeWhile Char.isDigit)

/-- A list of weights, each cut off at 2^32 - 1, among words that cannot be read. -/
inductive Weights : List Line → List UInt32 → Prop where
  | nil : Weights [] []
  | weight {tok : Line} {toks : List Line} {w : List UInt32} : IsDecimal tok →
      digitsValue tok < 18446744073709551616 → Weights toks w →
      Weights (tok :: toks) (UInt32.ofNat (min (digitsValue tok) 4294967295) :: w)
  | skip {tok : Line} {toks : List Line} {w : List UInt32} : Unreadable tok → Weights toks w →
      Weights (tok :: toks) w

/-- The words in front of a comment. -/
def lineWords (line : Line) : List Line := words (line.takeWhile (· ≠ '#'))

/-- `n: w1 ... wk` or `n w1 ... wk` with at least one weight. -/
def LineFor (line : Line) (nodeId : UInt32) (w : List UInt32) : Prop :=
  ∃ key toks digits, lineWords line = key :: toks ∧ IsDecimal digits ∧
    (key = digits ∨ key = digits ++ [':']) ∧ digitsValue digits = nodeId.toNat ∧
    Weights toks w ∧ w ≠ []

/-- A line without words, without a node that can be read, or without a weight. -/
def Harmless (line : Line) : Prop :=
  match lineWords line with
  | [] => True
  | key :: toks =>
      Unreadable (if key.getLast? = some ':' then key.dropLast else key) ∨
        ∀ tok ∈ toks, Unreadable tok

/- Words -/

theorem splitOnP_space (s : Line) {c : Char} (space : isSpace c = true) :
    (s ++ [c]).splitOnP isSpace = s.splitOnP isSpace ++ [[]] := by
  induction s with
  | nil => simp [List.splitOnP_cons_eq_if_modifyHead, space]
  | cons first s ih =>
    rw [List.cons_append, List.splitOnP_cons_eq_if_modifyHead,
      List.splitOnP_cons_eq_if_modifyHead, ih]
    by_cases at_start : isSpace first = true
    · rw [if_pos at_start, if_pos at_start, List.cons_append]
    · rw [if_neg at_start, if_neg at_start]
      have ⟨head, rest, shape⟩ := List.exists_cons_of_ne_nil (List.splitOnP_ne_nil isSpace s)
      rw [shape]
      rfl

theorem words_dropWhile (s : Line) : words (s.dropWhile isSpace) = words s := by
  induction s with
  | nil => rfl
  | cons c s ih =>
    by_cases space : isSpace c = true
    · rw [List.dropWhile_cons_of_pos space, ih]
      simp [words, List.splitOnP_cons_eq_if_modifyHead, space]
    · rw [List.dropWhile_cons_of_neg space]

theorem words_rdropWhile (s : Line) : words (s.rdropWhile isSpace) = words s := by
  induction s using List.reverseRecOn with
  | nil => rfl
  | append_singleton s c ih =>
    by_cases space : isSpace c = true
    · rw [List.rdropWhile_concat_pos _ _ _ space, ih]
      simp [words, splitOnP_space s space]
    · rw [List.rdropWhile_concat_neg _ _ _ space]

/-- Trimming the line changes none of its words. -/
theorem words_trimmed (line : Line) : words (stripCommentAndTrim line) = lineWords line := by
  rw [stripCommentAndTrim, words_rdropWhile, words_dropWhile]
  rfl

theorem splitOnP_plain (s : Line) : ∀ word ∈ s.splitOnP isSpace, ∀ c ∈ word, isSpace c = false := by
  induction s with
  | nil => simp
  | cons first s ih =>
    rw [List.splitOnP_cons_eq_if_modifyHead]
    by_cases space : isSpace first = true
    · rw [if_pos space]
      intro word member
      rcases List.mem_cons.mp member with rfl | later
      · simp
      · exact ih word later
    · rw [if_neg space]
      have ⟨head, rest, shape⟩ := List.exists_cons_of_ne_nil (List.splitOnP_ne_nil isSpace s)
      rw [shape] at ih ⊢
      intro word member c inside
      rcases List.mem_cons.mp member with rfl | later
      · rcases List.mem_cons.mp inside with rfl | behind
        · exact Bool.eq_false_iff.mpr space
        · exact ih head List.mem_cons_self c behind
      · exact ih word (List.mem_cons_of_mem head later) c inside

theorem lineWords_plain {line word : Line} (member : word ∈ lineWords line) :
    ∀ c ∈ word, isSpace c = false :=
  splitOnP_plain _ word (List.mem_filter.mp member).1

/- Numbers -/

theorem digit_plain {c : Char} (digit : c.isDigit = true) :
    isSpace c = false ∧ c ≠ '+' ∧ c ≠ '-' ∧ c ≠ ':' := by
  have least : 48 ≤ c.toNat := by
    rw [Char.isDigit, Bool.and_eq_true, decide_eq_true_eq] at digit
    exact UInt32.le_iff_toNat_le.mp digit.1
  refine ⟨?_, ?_, ?_, ?_⟩
  · simp only [isSpace, Bool.or_eq_false_iff, Bool.and_eq_false_iff, decide_eq_false_iff_not]
    omega
  · rintro rfl
    cases digit
  · rintro rfl
    cases digit
  · rintro rfl
    cases digit

theorem strtoull_decimal {tok : Line} (decimal : IsDecimal tok)
    (small : digitsValue tok < 18446744073709551616) :
    strtoull tok = some (UInt64.ofNat (digitsValue tok)) := by
  obtain ⟨some_digits, digits⟩ := decimal
  have ⟨first, rest, shape⟩ := List.exists_cons_of_ne_nil some_digits
  have ⟨space, plus, minus, _⟩ := digit_plain (digits first (by simp [shape]))
  have text : tok.dropWhile isSpace = tok := by
    rw [shape, List.dropWhile_cons_of_neg (by simp [space])]
  have head : tok.head? = some first := by rw [shape]; rfl
  have all : tok.takeWhile Char.isDigit = tok := List.takeWhile_eq_self_iff.mpr digits
  have fits : ¬(tok = [] ∨ 18446744073709551615 < digitsValue tok) := by
    rintro (empty | large)
    · exact some_digits empty
    · omega
  simp only [strtoull, text, head, Option.some.injEq, plus, minus, or_self, ↓reduceIte, all, fits]

theorem strtoull_unreadable {tok : Line} (plain : ∀ c ∈ tok, isSpace c = false)
    (unreadable : Unreadable tok) : strtoull tok = none := by
  have text : tok.dropWhile isSpace = tok := by
    cases tok with
    | nil => rfl
    | cons c tok => rw [List.dropWhile_cons_of_neg (by simp [plain c])]
  unfold Unreadable at unreadable
  rw [strtoull, text, if_pos]
  rcases unreadable with no_digits | large
  · exact .inl no_digits
  · exact .inr (Nat.lt_of_succ_le large)

theorem readWeight_decimal {tok : Line} (decimal : IsDecimal tok)
    (small : digitsValue tok < 18446744073709551616) :
    readWeight tok = some (UInt32.ofNat (min (digitsValue tok) 4294967295)) := by
  have value : (UInt64.ofNat (digitsValue tok)).toNat = digitsValue tok :=
    UInt64.toNat_ofNat_of_lt' small
  have compare : 4294967295 < UInt64.ofNat (digitsValue tok) ↔ 4294967295 < digitsValue tok := by
    rw [UInt64.lt_iff_toNat_lt, value]
    rfl
  rw [readWeight, strtoull_decimal decimal small, Option.map_some, Option.some.injEq]
  by_cases large : 4294967295 < digitsValue tok
  · rw [if_pos (compare.mpr large), min_eq_right large.le]
    rfl
  · rw [if_neg (mt compare.mp large), min_eq_left (not_lt.mp large)]
    apply UInt32.toNat_inj.mp
    rw [UInt64.toNat_toUInt32, value]
    rfl

theorem Weights.read {toks : List Line} {w : List UInt32} (weights : Weights toks w)
    (plain : ∀ tok ∈ toks, ∀ c ∈ tok, isSpace c = false) : toks.filterMap readWeight = w := by
  induction weights with
  | nil => rfl
  | weight decimal small _ ih =>
    rw [List.filterMap_cons_some (readWeight_decimal decimal small)]
    rw [ih fun tok member => plain tok (List.mem_cons_of_mem _ member)]
  | skip unreadable _ ih =>
    have skipped : readWeight _ = none :=
      congrArg (Option.map _) (strtoull_unreadable (plain _ List.mem_cons_self) unreadable)
    rw [List.filterMap_cons_none skipped]
    exact ih fun tok member => plain tok (List.mem_cons_of_mem _ member)

/- Lines -/

/-- A key of a line is read without its colon. -/
theorem readNodeId_decimal {key digits : Line} {nodeId : UInt32} (decimal : IsDecimal digits)
    (shape : key = digits ∨ key = digits ++ [':']) (value : digitsValue digits = nodeId.toNat) :
    readNodeId key = some nodeId := by
  have bare : (if key.getLast? = some ':' then key.dropLast else key) = digits := by
    rcases shape with rfl | rfl
    · have other : key.getLast? ≠ some ':' := by
        intro colon
        exact (digit_plain (decimal.2 ':' (List.mem_of_getLast? colon))).2.2.2 rfl
      rw [if_neg other]
    · rw [List.getLast?_concat, if_pos rfl, List.dropLast_concat]
  have small := nodeId.toNat_lt
  have large : digitsValue digits < 18446744073709551616 := by omega
  rw [readNodeId, bare, strtoull_decimal decimal large, Option.map_some, Option.some.injEq]
  apply UInt32.toNat_inj.mp
  rw [UInt64.toNat_toUInt32, UInt64.toNat_ofNat_of_lt' large, value]
  exact Nat.mod_eq_of_lt small

theorem LineFor.read {line : Line} {nodeId : UInt32} {w : List UInt32}
    (given : LineFor line nodeId w) : readWeights line = some (nodeId, w) := by
  obtain ⟨key, toks, digits, split, decimal, shape, value, weights, some_weights⟩ := given
  have plain : ∀ tok ∈ toks, ∀ c ∈ tok, isSpace c = false := by
    intro tok member
    have there : tok ∈ lineWords line := split ▸ List.mem_cons_of_mem key member
    exact lineWords_plain there
  have found := weights.read plain
  rw [readWeights, words_trimmed, split]
  simp only [readNodeId_decimal decimal shape value, found, some_weights, ↓reduceIte]

theorem Harmless.read {line : Line} (harmless : Harmless line) : readWeights line = none := by
  unfold Harmless at harmless
  rw [readWeights, words_trimmed]
  cases split : lineWords line with
  | nil => rfl
  | cons key toks =>
    have plain : ∀ word ∈ key :: toks, ∀ c ∈ word, isSpace c = false := by
      intro word member
      exact lineWords_plain (split ▸ member)
    rw [split] at harmless
    rcases harmless with no_node | no_weights
    · have bare : ∀ c ∈ (if key.getLast? = some ':' then key.dropLast else key),
          isSpace c = false := by
        intro c inside
        apply plain key List.mem_cons_self
        split at inside
        · exact List.mem_of_mem_dropLast inside
        · exact inside
      have unread : readNodeId key = none := by
        rw [readNodeId, strtoull_unreadable bare no_node]
        rfl
      simp only [unread]
    · have nothing : toks.filterMap readWeight = [] := by
        rw [List.filterMap_eq_nil_iff]
        intro tok member
        rw [readWeight, strtoull_unreadable (plain tok (List.mem_cons_of_mem key member))
          (no_weights tok member)]
        rfl
      cases id : readNodeId key with
      | none => simp only [id]
      | some nodeId => simp only [id, nothing, ↓reduceIte]

/-- A line of the form, or one that stands for nothing. -/
def Clean (line : Line) : Prop := (∃ nodeId w, LineFor line nodeId w) ∨ Harmless line

theorem Clean.other {line : Line} {nodeId : UInt32} (clean : Clean line)
    (not_for : ∀ w, ¬LineFor line nodeId w) (w : List UInt32) :
    readWeights line ≠ some (nodeId, w) := by
  intro read
  rcases clean with ⟨other, v, given⟩ | harmless
  · have same := given.read.symm.trans read
    obtain ⟨rfl, rfl⟩ := Prod.mk.inj (Option.some.inj same)
    exact not_for v given
  · rw [harmless.read] at read
    cases read

theorem lookup_none {entries : List (UInt32 × List UInt32)} {nodeId : UInt32}
    (others : ∀ w, (nodeId, w) ∉ entries) : entries.lookup nodeId = none := by
  rw [List.lookup_eq_none_iff]
  rintro ⟨other, w⟩ member
  rw [bne_iff_ne]
  rintro rfl
  exact others w member

theorem weightsOf_lines (lines : List Line) (nodeId : UInt32) :
    (weightsOf (some lines)).nodeRawWeights nodeId =
      (lines.filterMap readWeights).reverse.lookup nodeId := rfl

/-- A line of the form for a node gives the node its weights, unless a later line of the
form does. A node without a line has none. Lines that stand for nothing change nothing. -/
theorem weight_file_read (lines : List Line) :
    (∀ before line after nodeId w, lines = before ++ line :: after → LineFor line nodeId w →
      (∀ later ∈ after, Clean later ∧ ∀ v, ¬LineFor later nodeId v) →
      (weightsOf (some lines)).nodeRawWeights nodeId = some w) ∧
    (∀ nodeId, (∀ line ∈ lines, Clean line ∧ ∀ w, ¬LineFor line nodeId w) →
      (weightsOf (some lines)).nodeRawWeights nodeId = none) ∧
    ∀ before line after, lines = before ++ line :: after → Harmless line →
      (weightsOf (some lines)).nodeRawWeights =
        (weightsOf (some (before ++ after))).nodeRawWeights := by
  have none_for {others : List Line} {nodeId : UInt32}
      (clean : ∀ line ∈ others, Clean line ∧ ∀ w, ¬LineFor line nodeId w) :
      (others.filterMap readWeights).reverse.lookup nodeId = none := by
    apply lookup_none
    intro w member
    have ⟨line, there, read⟩ := List.mem_filterMap.mp (List.mem_reverse.mp member)
    have ⟨plain, not_for⟩ := clean line there
    exact plain.other not_for w read
  refine ⟨?_, ?_, ?_⟩
  · intro before line after nodeId w split given clean
    rw [weightsOf_lines, split, List.filterMap_append, List.filterMap_cons_some given.read,
      List.reverse_append, List.reverse_cons, List.append_assoc, List.lookup_append, none_for clean]
    simp
  · intro nodeId clean
    rw [weightsOf_lines]
    exact none_for clean
  · intro before line after split harmless
    funext nodeId
    rw [weightsOf_lines, weightsOf_lines, split, List.filterMap_append, List.filterMap_append,
      List.filterMap_cons_none harmless.read]

/-- Node 4 with two weights and a word between them that is none. -/
def mixedLine : Line := ['4', ':', ' ', '5', ' ', 'x', ' ', '6']

theorem mixedLine_words : lineWords mixedLine = [['4', ':'], ['5'], ['x'], ['6']] := by decide

theorem weight_file_read_mixed :
    (weightsOf (some [['4', ' ', '9'], mixedLine, ['?', ' ', '1']])).nodeRawWeights 4 =
      some [5, 6] := by
  have ⟨last, _, _⟩ := weight_file_read [['4', ' ', '9'], mixedLine, ['?', ' ', '1']]
  have weights : Weights [['5'], ['x'], ['6']] [5, 6] :=
    .weight ⟨by decide, List.all_eq_true.mp rfl⟩ (by decide) (.skip (.inl rfl)
      (.weight ⟨by decide, List.all_eq_true.mp rfl⟩ (by decide) .nil))
  apply last [['4', ' ', '9']] mixedLine [['?', ' ', '1']] 4 [5, 6] rfl
  · exact ⟨_, _, ['4'], mixedLine_words, ⟨by decide, List.all_eq_true.mp rfl⟩, .inr rfl, rfl,
      weights, by decide⟩
  · intro later member
    obtain rfl := List.mem_singleton.mp member
    have split : lineWords ['?', ' ', '1'] = [['?'], ['1']] := by decide
    have harmless : Harmless ['?', ' ', '1'] := by
      rw [Harmless, split]
      exact .inl (.inl rfl)
    refine ⟨.inr harmless, ?_⟩
    intro v given
    have read := given.read
    rw [harmless.read] at read
    cases read

/-- The form without words that are skipped. -/
def Documented (line : Line) (nodeId : UInt32) (w : List UInt32) : Prop :=
  ∃ key toks digits, lineWords line = key :: toks ∧ IsDecimal digits ∧
    (key = digits ∨ key = digits ++ [':']) ∧ digitsValue digits = nodeId.toNat ∧ toks ≠ [] ∧
    (∀ tok ∈ toks, IsDecimal tok) ∧
    w = toks.map fun tok => UInt32.ofNat (min (digitsValue tok) 4294967295)

/-- A line with a word that is skipped gives its node weights. -/
theorem weight_file_read_skipped :
    ¬∀ line, (∀ nodeId w, ¬Documented line nodeId w) →
      ∀ nodeId, (weightsOf (some [line])).nodeRawWeights nodeId = none := by
  intro unchanged
  have other : ∀ nodeId w, ¬Documented mixedLine nodeId w := by
    rintro nodeId w ⟨key, toks, digits, split, _, _, _, _, decimal, _⟩
    rw [mixedLine_words] at split
    obtain ⟨rfl, rfl⟩ := List.cons.inj split
    have digit := (decimal ['x'] (by decide)).2 'x' (by decide)
    exact absurd digit (by decide)
  have none := unchanged mixedLine other 4
  have found : (weightsOf (some [mixedLine])).nodeRawWeights 4 = some [5, 6] := by decide
  rw [found] at none
  cases none

end QbbNet
