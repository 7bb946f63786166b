import DatasetDepot.Text.Blank
import DatasetDepot.Text.Utf8

/-!
Lines and words of text.

No byte of a longer character is a line feed, so that bytes which encode a text as a whole encode
it line by line.  Words are parted by any blank; more blanks part nothing else.
-/

namespace DatasetDepot.Text

/-- What stands in front of a text without a break belongs to its first part. -/
theorem splitOnP_append_left {α : Type} {breaks : α → Bool} {front : List α}
    (unbroken : ∀ item ∈ front, breaks item = false) (rest : List α) :
    (front ++ rest).splitOnP breaks = (rest.splitOnP breaks).modifyHead (front ++ ·) := by
  induction front with
  | nil => cases split : rest.splitOnP breaks <;> exact split
  | cons first front inductionHypothesis =>
      obtain ⟨head, tail⟩ := List.forall_mem_cons.mp unbroken
      rw [List.cons_append, List.splitOnP_cons_eq_if_modifyHead, head, inductionHypothesis tail,
        if_neg Bool.false_ne_true, List.modifyHead_modifyHead]
      rfl

theorem map_modifyHead {α β : Type} {image : α → β} {change : α → α} {change' : β → β}
    (commutes : ∀ item, image (change item) = change' (image item)) (items : List α) :
    (items.modifyHead change).map image = (items.map image).modifyHead change' := by
  cases items with
  | nil => rfl
  | cons first rest =>
      simp only [List.modifyHead_cons, List.map_cons, commutes]

namespace Utf8

/-- The bytes that encode a letter. -/
inductive Encodes : Bytes → Char → Prop where
  | one {a : UInt8} (low : a < 0x80) : Encodes [a] (Char.ofNat a.toNat)
  | two {a b : UInt8} (low : 0xC2 ≤ a) (high : a ≤ 0xDF) (second : isTail b = true) :
      Encodes [a, b] (Char.ofNat (payload a 5 * 64 + payload b 6))
  | three {a b c : UInt8} (low : 0xE0 ≤ a) (high : a ≤ 0xEF)
      (second : isSecondOfThree a b = true) (third : isTail c = true) :
      Encodes [a, b, c] (Char.ofNat ((payload a 4 * 64 + payload b 6) * 64 + payload c 6))
  | four {a b c d : UInt8} (low : 0xF0 ≤ a) (high : a ≤ 0xF4)
      (second : isSecondOfFour a b = true) (third : isTail c = true) (fourth : isTail d = true) :
      Encodes [a, b, c, d]
        (Char.ofNat (((payload a 3 * 64 + payload b 6) * 64 + payload c 6) * 64 + payload d 6))

theorem Encodes.scan_append {bytes : Bytes} {letter : Char} (encodes : Encodes bytes letter)
    (rest : Bytes) : scan (bytes ++ rest) = (letter :: (scan rest).1, (scan rest).2) := by
  cases encodes with
  | one low =>
      rw [List.singleton_append, scan.eq_def]
      simp only [if_pos low]
  | two low high second =>
      rw [List.cons_append, List.singleton_append, scan.eq_def]
      simp only
      rw [if_neg (by grind), if_pos (by grind), if_pos second]
  | three low high second third =>
      rw [List.cons_append, List.cons_append, List.singleton_append, scan.eq_def]
      simp only
      rw [if_neg (by grind), if_neg (by grind), if_pos (by grind), if_pos (by grind)]
  | four low high second third fourth =>
      rw [List.cons_append, List.cons_append, List.cons_append, List.singleton_append,
        scan.eq_def]
      simp only
      rw [if_neg (by grind), if_neg (by grind), if_neg (by grind), if_pos (by grind),
        if_pos (by grind)]

theorem Encodes.decode?_append {bytes : Bytes} {letter : Char} (encodes : Encodes bytes letter)
    (rest : Bytes) : decode? (bytes ++ rest) = (decode? rest).map (letter :: ·) := by
  unfold decode?
  rw [encodes.scan_append]
  rcases scan rest with ⟨letters, _ | ⟨left, more⟩⟩ <;> rfl

theorem ofNat_ne_lineFeed {number : Nat} (other : number ≠ 10) : Char.ofNat number ≠ '\n' := by
  intro same
  unfold Char.ofNat at same
  by_cases valid : number.isValidChar
  · rw [dif_pos valid] at same
    exact other (congrArg Char.toNat same)
  · rw [dif_neg valid] at same
    cases same

/-- No three bytes spell what fewer can. -/
theorem le_payload_of_three {a b : UInt8} (low : 0xE0 ≤ a) (high : a ≤ 0xEF)
    (second : isSecondOfThree a b = true) : 32 ≤ payload a 4 * 64 + payload b 6 := by
  have lower : 0xE0 ≤ a.toNat := low
  have upper : a.toNat ≤ 0xEF := high
  have leading : payload a 4 = a.toNat % 16 := rfl
  by_cases least : a = 0xE0
  · subst least
    have within : 0xA0 ≤ b ∧ b ≤ 0xBF := by simpa [isSecondOfThree] using second
    have lower : 0xA0 ≤ b.toNat := within.1
    have upper : b.toNat ≤ 0xBF := within.2
    have trailing : payload b 6 = b.toNat % 64 := rfl
    omega
  · have more : a.toNat ≠ 0xE0 := fun same => least (UInt8.toNat_inj.mp same)
    omega

/-- No four bytes spell what fewer can. -/
theorem le_payload_of_four {a b : UInt8} (low : 0xF0 ≤ a) (high : a ≤ 0xF4)
    (second : isSecondOfFour a b = true) : 16 ≤ payload a 3 * 64 + payload b 6 := by
  have lower : 0xF0 ≤ a.toNat := low
  have upper : a.toNat ≤ 0xF4 := high
  have leading : payload a 3 = a.toNat % 8 := rfl
  by_cases least : a = 0xF0
  · subst least
    have within : 0x90 ≤ b ∧ b ≤ 0xBF := by simpa [isSecondOfFour] using second
    have lower : 0x90 ≤ b.toNat := within.1
    have upper : b.toNat ≤ 0xBF := within.2
    have trailing : payload b 6 = b.toNat % 64 := rfl
    omega
  · have more : a.toNat ≠ 0xF0 := fun same => least (UInt8.toNat_inj.mp same)
    omega

/-- A line feed is a byte of its own, and of no other letter. -/
theorem Encodes.lineFeed {bytes : Bytes} {letter : Char} (encodes : Encodes bytes letter) :
    bytes = [0x0A] ∧ letter = '\n' ∨ 0x0A ∉ bytes ∧ letter ≠ '\n' := by
  cases encodes with
  | @one a low =>
      by_cases feed : a = 0x0A
      · subst feed
        exact .inl ⟨rfl, rfl⟩
      · exact .inr ⟨by grind, ofNat_ne_lineFeed fun same => feed (UInt8.toNat_inj.mp same)⟩
  | @two a b low high second =>
      refine .inr ⟨by grind [isTail], ofNat_ne_lineFeed ?_⟩
      have lower : 0xC2 ≤ a.toNat := low
      have upper : a.toNat ≤ 0xDF := high
      have leading : payload a 5 = a.toNat % 32 := rfl
      omega
  | three low high second third =>
      refine .inr ⟨by grind [isTail, isSecondOfThree], ofNat_ne_lineFeed ?_⟩
      have large := le_payload_of_three low high second
      omega
  | four low high second third fourth =>
      refine .inr ⟨by grind [isTail, isSecondOfFour], ofNat_ne_lineFeed ?_⟩
      have large := le_payload_of_four low high second
      omega

/-- The bytes that encode a text, letter by letter. -/
inductive EncodesAll : Bytes → List Char → Prop where
  | nil : EncodesAll [] []
  | cons {head rest : Bytes} {letter : Char} {others : List Char} (first : Encodes head letter)
      (more : EncodesAll rest others) : EncodesAll (head ++ rest) (letter :: others)

theorem encodesAll_of_scan {bytes : Bytes} {text : List Char} (read : scan bytes = (text, [])) :
    EncodesAll bytes text := by
  fun_induction scan bytes generalizing text with
  | case1 =>
      cases read
      exact .nil
  | case2 a rest low letters left scanned inductionHypothesis =>
      cases read
      exact .cons (.one low) (inductionHypothesis scanned)
  | case3 a _ first b rest second letters left scanned inductionHypothesis =>
      cases read
      exact .cons (.two (by grind) (by grind) second) (inductionHypothesis scanned)
  | case6 a _ _ first b c rest behind letters left scanned inductionHypothesis =>
      cases read
      exact .cons (.three (by grind) (by grind) (by grind) (by grind)) (inductionHypothesis scanned)
  | case9 a _ _ _ first b c d rest behind letters left scanned inductionHypothesis =>
      cases read
      exact .cons (.four (by grind) (by grind) (by grind) (by grind) (by grind))
        (inductionHypothesis scanned)
  | case4 | case5 | case7 | case8 | case10 | case11 | case12 => cases read

theorem encodesAll_of_decode? {bytes : Bytes} {text : List Char}
    (decoded : decode? bytes = some text) : EncodesAll bytes text := by
  unfold decode? at decoded
  split at decoded
  · cases decoded
    exact encodesAll_of_scan ‹_›
  · cases decoded

theorem EncodesAll.map_decode? {bytes : Bytes} {text : List Char}
    (encodes : EncodesAll bytes text) :
    (bytes.splitOnP (· = 0x0A)).map decode? = (text.splitOnP (· = '\n')).map some := by
  induction encodes with
  | nil => rfl
  | @cons head rest letter others first _ inductionHypothesis =>
      rcases first.lineFeed with ⟨rfl, rfl⟩ | ⟨unbroken, other⟩
      · have bytewise : ([0x0A] ++ rest : Bytes).splitOnP (· = 0x0A) =
            [] :: rest.splitOnP (· = 0x0A) :=
          List.splitOnP_append_cons_of_forall_mem (List.forall_mem_nil _) _ rfl rest
        have letterwise : ('\n' :: others).splitOnP (· = '\n') =
            [] :: others.splitOnP (· = '\n') :=
          List.splitOnP_append_cons_of_forall_mem (List.forall_mem_nil _) _ rfl others
        rw [bytewise, letterwise, List.map_cons, List.map_cons, inductionHypothesis]
        rfl
      · have bytewise : (head ++ rest).splitOnP (· = 0x0A) =
            (rest.splitOnP (· = 0x0A)).modifyHead (head ++ ·) :=
          splitOnP_append_left (by
            intro byte member
            exact decide_eq_false (ne_of_mem_of_not_mem member unbroken)) rest
        have letterwise : ([letter] ++ others).splitOnP (· = '\n') =
            (others.splitOnP (· = '\n')).modifyHead ([letter] ++ ·) :=
          splitOnP_append_left (by simpa using other) others
        have wrapped : ((others.splitOnP (· = '\n')).modifyHead ([letter] ++ ·)).map some =
            ((others.splitOnP (· = '\n')).map some).modifyHead (Option.map ([letter] ++ ·)) :=
          map_modifyHead (by intro line; rfl) _
        rw [bytewise, map_modifyHead first.decode?_append, inductionHypothesis]
        exact wrapped.symm.trans (congrArg (List.map some) letterwise.symm)

/-- A text that is decoded as a whole is decoded line by line. -/
theorem map_decode?_lines {bytes : Bytes} {text : List Char} (decoded : decode? bytes = some text) :
    (bytes.splitOnP (· = 0x0A)).map decode? = (text.splitOnP (· = '\n')).map some :=
  (encodesAll_of_decode? decoded).map_decode?

end Utf8

/-! Words. -/

variable {left right : List Char} {blank : Char}

theorem words_append_blank (isBlank : isBlank blank = true) (left right : List Char) :
    words (left ++ blank :: right) = words left ++ words right := by
  unfold words
  rw [List.splitOnP_append_cons left right isBlank, List.filter_append]

theorem words_nil : words [] = [] := rfl

/-- A stretch without blanks is one word. -/
theorem words_of_unbroken {word : List Char} (some : word ≠ [])
    (unbroken : ∀ letter ∈ word, isBlank letter = false) : words word = [word] := by
  unfold words
  rw [List.splitOnP_eq_singleton unbroken]
  simpa using some

/-- Next to a blank or at an end, another blank changes nothing. -/
theorem words_insert_blank (isBlank : Text.isBlank blank = true)
    (beside : left = [] ∨ right = [] ∨ (∃ other, left.getLast? = some other ∧ Text.isBlank other) ∨
      ∃ other, right.head? = some other ∧ Text.isBlank other) :
    words (left ++ blank :: right) = words (left ++ right) := by
  rw [words_append_blank isBlank]
  rcases beside with rfl | rfl | ⟨other, last, isBlank'⟩ | ⟨other, first, isBlank'⟩
  · rfl
  · rw [words_nil, List.append_nil, List.append_nil]
  · obtain ⟨front, rfl⟩ := List.getLast?_eq_some_iff.mp last
    rw [List.append_assoc, List.singleton_append, words_append_blank isBlank',
      words_append_blank isBlank', words_nil, List.append_nil]
  · obtain ⟨behind, rfl⟩ := List.head?_eq_some_iff.mp first
    rw [words_append_blank isBlank', ← List.nil_append (other :: behind),
      words_append_blank isBlank', words_nil, List.nil_append]

end DatasetDepot.Text
