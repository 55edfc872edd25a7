import TigerOS.Shell.Grammar
import TigerOS.Shell.LineParser

/-! # The words of a line

The parser of the terminals answers the maximal runs of bytes that are no blanks, as many as
its array has room for (`TigerOS.Shell.shellParseLine_eq`). On a line without operators the
parser of the shell answers the same words (`TigerOS.Shell.parsers_agree`), though the two cut
the line in different places.
-/

namespace TigerOS.Shell

open Foundation

/-! ## Runs of bytes that are no blanks -/

/-- The maximal runs of bytes of a line that are no blanks, in order. -/
def blankWords (line : List UInt8) : List (List UInt8) :=
  (line.splitOnP fun ch => isSpace ch).filter fun word => word ≠ []

section BlankWords

variable {line rest word : List UInt8} {byte : UInt8}

theorem blankWords_nil : blankWords [] = [] := rfl

theorem blankWords_blank (blank : isSpace byte) : blankWords (byte :: rest) = blankWords rest := by
  unfold blankWords
  rw [List.splitOnP_cons_eq_if_modifyHead, if_pos (decide_eq_true blank), List.filter_cons_of_neg]
  exact fun nonempty => of_decide_eq_true nonempty rfl

theorem blankWords_dropBlanks (rest : List UInt8) :
    blankWords (rest.dropWhile fun ch => isSpace ch) = blankWords rest := by
  induction rest with
  | nil => rfl
  | cons byte rest ih =>
      by_cases blank : isSpace byte
      · simp only [List.dropWhile_cons, blank, decide_true, ↓reduceIte, ih, blankWords_blank blank]
      · simp only [List.dropWhile_cons, blank, decide_false, Bool.false_eq_true, ↓reduceIte]

/-- A run of bytes that are no blanks, up to a blank or the end of the line. -/
theorem blankWords_word (some_ : word ≠ []) (solid : ∀ ch ∈ word, ¬ isSpace ch)
    (ends : ∀ byte, rest.head? = some byte → isSpace byte) :
    blankWords (word ++ rest) = word :: blankWords rest := by
  have solid' : ∀ ch ∈ word, decide (isSpace ch) = false :=
    fun ch member => decide_eq_false (solid ch member)
  cases rest with
  | nil =>
      unfold blankWords
      rw [List.append_nil, List.splitOnP_eq_singleton solid',
        List.filter_cons, if_pos (decide_eq_true some_)]
      rfl
  | cons stop rest =>
      have blank := ends stop rfl
      rw [blankWords_blank blank]
      unfold blankWords
      rw [List.splitOnP_append_cons_of_forall_mem (p := fun ch => decide (isSpace ch)) solid' _
        (decide_eq_true blank), List.filter_cons, if_pos (decide_eq_true some_)]

/-- The words of a line that starts with one. -/
theorem blankWords_cons (solid : ¬ isSpace byte) : blankWords (byte :: rest) =
    ((byte :: rest).takeWhile fun ch => ¬ isSpace ch) ::
      blankWords ((byte :: rest).dropWhile fun ch => ¬ isSpace ch) := by
  have parts := List.takeWhile_append_dropWhile (p := fun ch => decide (¬ isSpace ch))
    (l := byte :: rest)
  conv_lhs => rw [← parts]
  apply blankWords_word
  · rw [List.takeWhile_cons, if_pos (decide_eq_true solid)]
    exact List.cons_ne_nil _ _
  · intro ch member
    have passed := List.mem_takeWhile_imp (p := fun ch => decide (¬ isSpace ch)) member
    exact of_decide_eq_true passed
  · intro stop head
    have outside := List.head?_dropWhile_not (fun ch => decide (¬ isSpace ch)) (byte :: rest)
    rw [head] at outside
    simpa using outside

/-- A line has no words exactly when it has blanks only. -/
theorem blankWords_eq_nil : blankWords line = [] ↔ ∀ byte ∈ line, isSpace byte := by
  induction line with
  | nil => exact iff_of_true rfl fun _ member => absurd member List.not_mem_nil
  | cons byte line ih =>
      rw [List.forall_mem_cons]
      by_cases blank : isSpace byte
      · rw [blankWords_blank blank, ih, and_iff_right blank]
      · rw [blankWords_cons blank]
        exact iff_of_false (List.cons_ne_nil _ _) fun all => blank all.1

end BlankWords

/-! ## Cutting at blanks -/

section Loop

variable {scan : Tokenizer} {rest : List UInt8} {found : List (List UInt8)} {argv : List ℕ}
  {length rounds argvCap : ℕ}

/-- The loop over a word stops at a blank or the end of the line. -/
theorem skipNonBlank_spec (reads : Reads scan.buffer scan.cursor rest) (noNul : 0 ∉ rest)
    (enough : rest.length ≤ rounds) :
    skipNonBlank rounds scan =
      { scan with cursor := scan.cursor + (rest.takeWhile fun ch => ¬ isSpace ch).length } := by
  induction rounds generalizing scan rest with
  | zero =>
      obtain rfl := List.length_eq_zero_iff.mp (Nat.le_zero.mp enough)
      rfl
  | succ rounds ih =>
      unfold skipNonBlank
      rw [byte_of_reads reads]
      cases rest with
      | nil => rfl
      | cons byte rest =>
          simp only [List.mem_cons, not_or] at noNul
          by_cases blank : isSpace byte
          · rw [List.headD_cons, if_neg (fun passes => passes.2 blank)]
            simp only [List.takeWhile_cons, blank, not_true_eq_false, decide_false,
              Bool.false_eq_true, ↓reduceIte, List.length_nil, Nat.add_zero]
          · rw [List.headD_cons, if_pos ⟨Ne.symm noNul.1, blank⟩,
              @ih { scan with cursor := scan.cursor + 1 } rest reads.2 noNul.2
                (Nat.le_of_succ_le_succ enough)]
            simp only [List.takeWhile_cons, blank, not_false_eq_true, decide_true, ↓reduceIte,
              List.length_cons, Nat.add_assoc, Nat.add_comm]

/-- The words that were cut are the strings at their addresses. -/
private theorem stored_strings (stored : List.Forall₂ (Stored length scan) argv found) :
    argv.map (stringAt length scan.buffer) = found := by
  induction stored with
  | nil => rfl
  | cons first _ ih =>
      rw [List.map_cons, ih, first.reads.stringAt_eq first.noNul first.inside]

/-- One more word was cut. -/
private theorem stored_snoc {scan' : Tokenizer} {rest' word : List UInt8}
    (stored : List.Forall₂ (Stored length scan) argv found)
    (advances : Advances scan scan' rest rest')
    (whole : scan.cursor + rest.length = length) (kept : Stored length scan' scan.cursor word) :
    List.Forall₂ (Stored length scan') (argv ++ [scan.cursor]) (found ++ [word]) :=
  List.rel_append (stored.imp fun _ _ old => old.advance advances whole) (.cons kept .nil)

/-- **The loop answers the words of the rest** that its array has room for. -/
theorem parseLineLoop_spec (reads : Reads scan.buffer scan.cursor rest) (noNul : 0 ∉ rest)
    (whole : scan.cursor + rest.length = length) (idle : scan.pending = 0)
    (enough : rest.length < rounds) (stored : List.Forall₂ (Stored length scan) argv found)
    (room : found.length ≤ argvCap) :
    (parseLineLoop length argvCap rounds scan argv).1.map
        (stringAt length (parseLineLoop length argvCap rounds scan argv).2) =
      found ++ (blankWords rest).take (argvCap - found.length) := by
  induction rounds generalizing scan rest found argv with
  | zero => exact absurd enough (Nat.not_lt_zero _)
  | succ rounds ih =>
      have within : rest.length ≤ length := whole ▸ Nat.le_add_left _ _
      obtain ⟨blanks, idle'⟩ := skipBlanks_spec reads noNul within
      have noNul' : 0 ∉ rest.dropWhile fun ch => isSpace ch :=
        fun member => noNul (List.dropWhile_subset _ member)
      have fewer := (List.dropWhile_suffix (fun ch => decide (isSpace ch)) (l := rest)).length_le
      have solid := List.head?_dropWhile_not (fun ch => decide (isSpace ch)) rest
      unfold parseLineLoop
      rw [byte_of_reads reads]
      cases rest with
      | nil =>
          rw [if_pos List.headD_nil, blankWords_nil, List.take_nil, List.append_nil]
          exact stored_strings stored
      | cons byte rest =>
          have nonzero : (byte :: rest).headD 0 ≠ 0 := fun zero => noNul (zero ▸ List.mem_cons_self)
          rw [if_neg nonzero, ← blankWords_dropBlanks]
          have stored' := stored.imp fun _ _ kept => kept.advance blanks whole
          have whole' := blanks.total.trans whole
          rw [idle] at idle'
          revert blanks idle' noNul' fewer solid stored' whole'
          generalize skipBlanks length scan = scan1
          generalize (byte :: rest).dropWhile (fun ch => isSpace ch) = rest1
          intro idle' blanks noNul' fewer solid stored' whole'
          simp only [byte_of_reads blanks.reads]
          cases rest1 with
          | nil =>
              rw [if_pos List.headD_nil, blankWords_nil, List.take_nil, List.append_nil]
              exact stored_strings stored'
          | cons first more =>
              have nonzero' : (first :: more).headD 0 ≠ 0 :=
                fun zero => noNul' (zero ▸ List.mem_cons_self)
              have solid' : ¬ isSpace first := by simpa using solid
              rw [if_neg nonzero', blankWords_cons solid']
              by_cases full : argvCap ≤ argv.length
              · rw [stored.length_eq] at full
                rw [if_pos (stored.length_eq ▸ full), Nat.sub_eq_zero_of_le full, List.take_zero,
                  List.append_nil]
                exact stored_strings stored'
              · rw [if_neg full]
                have skips := skipNonBlank_spec blanks.reads noNul' (fewer.trans within)
                have steps := word_step (fun ch => ¬ isSpace ch) blanks.reads noNul' whole' idle'
                  _ skips
                rw [stored.length_eq] at full
                have taken : argvCap - found.length = argvCap - (found.length + 1) + 1 := by omega
                rw [taken, List.take_succ_cons]
                have tail := List.dropWhile_suffix (fun ch => decide (¬ isSpace ch))
                  (l := first :: more)
                revert steps tail
                generalize skipNonBlank length scan1 = scan2
                generalize ((first :: more).takeWhile fun ch => ¬ isSpace ch) = word
                generalize ((first :: more).dropWhile fun ch => ¬ isSpace ch) = rest2
                intro steps tail
                cases rest2 with
                | nil =>
                    obtain ⟨stops, advances, _, kept⟩ := steps
                    rw [if_pos stops, blankWords_nil, List.take_nil]
                    exact stored_strings (stored_snoc stored' advances whole' kept)
                | cons stop after =>
                    obtain ⟨stops, apart, blank, advances, idle2, kept⟩ := steps
                    have noNul2 : 0 ∉ after :=
                      fun member => noNul' (tail.subset (List.mem_cons_of_mem _ member))
                    have shorter : after.length < rounds :=
                      Nat.lt_of_succ_lt_succ ((tail.length_le.trans fewer).trans_lt enough)
                    have room' : (found ++ [word]).length ≤ argvCap := by
                      rw [List.length_append]
                      exact not_le.mp full
                    rw [if_neg (stops ▸ apart), blankWords_blank (not_not.mp blank),
                      ih advances.reads noNul2 (advances.total.trans whole') idle2 shorter
                        (stored_snoc stored' advances whole' kept) room', List.append_assoc,
                      List.length_append]
                    rfl

end Loop

/-- **The parser of the terminals answers the words of a line** that its array has room
for. -/
theorem shellParseLine_eq (line : CString) (argvCap : ℕ) :
    shellParseLine line argvCap = (blankWords line.bytes).take argvCap := by
  have loops := @parseLineLoop_spec ⟨fun k => line.bytes.getD k 0, 0, 0⟩ line.bytes [] []
    line.bytes.length (line.bytes.length + 1) argvCap (reads_line line.bytes) line.noNul
    (Nat.zero_add _) rfl (Nat.lt_succ_self _) .nil (Nat.zero_le _)
  exact loops

/-! ## Lines without operators -/

section Plain

variable {line : List UInt8}

/-- The tokens of a line without operators are its words. -/
theorem tokens_plain (noBar : bar ∉ line) (noGreater : greater ∉ line) :
    tokens line = (blankWords line).map .word := by
  induction size : line.length using Nat.strong_induction_on generalizing line with
  | _ total ih =>
      rcases line_cases line with rfl | ⟨byte, rest, rfl, blank⟩ | ⟨rest, rfl⟩ | ⟨rest, rfl⟩ |
        ⟨word, rest, rfl, some_, inside, ends⟩
      · rfl
      · rw [tokens_blank blank, blankWords_blank blank]
        apply ih rest.length (size ▸ Nat.lt_succ_self _) _ _ rfl
        · exact fun member => noBar (List.mem_cons_of_mem _ member)
        · exact fun member => noGreater (List.mem_cons_of_mem _ member)
      · exact absurd List.mem_cons_self noBar
      · exact absurd List.mem_cons_self noGreater
      · have noBar' : bar ∉ rest := fun member => noBar (List.mem_append_right _ member)
        have noGreater' : greater ∉ rest :=
          fun member => noGreater (List.mem_append_right _ member)
        have shorter : rest.length < total := by
          rw [← size, List.length_append]
          exact Nat.lt_add_of_pos_left (List.length_pos_iff.mpr some_)
        rw [tokens_word some_ inside ends, blankWords_word some_,
          ih rest.length shorter noBar' noGreater' rfl]
        · rfl
        · exact fun ch member => (inside ch member).1
        · intro stop head
          by_contra solid
          have member : stop ∈ rest := List.mem_of_mem_head? head
          apply ends stop head
          refine ⟨solid, ?_, ?_⟩
          · exact fun same => noBar' (same ▸ member)
          · exact fun same => noGreater' (same ▸ member)

end Plain

/-- **The two parsers agree** on a line without operators that has between 1 and 16 words:
both answer its words, and the parser of the shell has no pipe and no redirection. -/
theorem parsers_agree (line : CString) (noBar : bar ∉ line.bytes) (noGreater : greater ∉ line.bytes)
    (some_ : 1 ≤ (blankWords line.bytes).length)
    (short : (blankWords line.bytes).length ≤ shellParseArgvCap) :
    shellParseLine line shellParseArgvCap = blankWords line.bytes ∧
      shellParseWithRedirection line =
        some ⟨blankWords line.bytes, [], false, .none, none⟩ := by
  constructor
  · rw [shellParseLine_eq, List.take_of_length_le short]
  · apply parse_of_grammar
    · exact ⟨⟨some_, short⟩, rfl, iff_of_true rfl rfl⟩
    · rw [tokens_plain noBar noGreater]
      simp only [ParseResult.tokens, redirTokens, Bool.false_eq_true, ↓reduceIte, List.append_nil]

/-- A line of three words with blanks of both kinds around them. -/
theorem parsers_agree_echo :
    shellParseLine (CString.of (ascii " \t  echo   alpha\tbeta  ")) shellParseArgvCap =
        [ascii "echo", ascii "alpha", ascii "beta"] ∧
      shellParseWithRedirection (CString.of (ascii " \t  echo   alpha\tbeta  ")) =
        some ⟨[ascii "echo", ascii "alpha", ascii "beta"], [], false, .none, none⟩ := by
  have words : blankWords (CString.of (ascii " \t  echo   alpha\tbeta  ")).bytes =
      [ascii "echo", ascii "alpha", ascii "beta"] := by decide +kernel
  have agree := parsers_agree (CString.of (ascii " \t  echo   alpha\tbeta  "))
    (by decide +kernel) (by decide +kernel) (by decide +kernel) (by decide +kernel)
  rwa [words] at agree

end TigerOS.Shell
