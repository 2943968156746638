import SchemaForge.Proofs.Enumerators

/-! Underscores between the words of a name. They are put in by two passes over the name, of which the
first leaves out the words that follow directly on one that it has passed over. Both together do what one
pass does that looks at each character and its neighbours. -/
namespace SchemaForge
namespace Text

/-- Whether a word starts at a character, between the one before it and the one after it. -/
def startsWord (before c : Char) (after : Option Char) : Bool :=
  c.isUpper && (before.isLower || before.isDigit || after.any Char.isLower && before != '\n')

/-- Whether a word starts at a position behind the first. -/
def opensWord (cs : List Char) (i : Nat) : Bool :=
  0 < i && cs[i - 1]?.any fun before => cs[i]?.any fun c => startsWord before c cs[i + 1]?

/-- The text with one underscore in front of each character at which a word starts. -/
def separated (cs : List Char) : List Char :=
  cs.zipIdx.flatMap fun (c, i) => if opensWord cs i then ['_', c] else [c]

/-- What follows on a character, separated. -/
def separatedAfter : Char → List Char → List Char
  | _, [] => []
  | before, c :: rest =>
    (if startsWord before c rest.head? then ['_', c] else [c]) ++ separatedAfter c rest

/-- What follows on a character, with an underscore in front of each capital behind a small letter or a
digit. -/
def capitalsAfter : Char → List Char → List Char
  | _, [] => []
  | before, c :: rest =>
    (if (before.isLower || before.isDigit) && c.isUpper then ['_', c] else [c]) ++ capitalsAfter c rest

theorem separated_eq_separatedAfter (c : Char) (cs : List Char) :
    separated (c :: cs) = c :: separatedAfter c cs := by
  -- The positions count from the front of the whole text, so the part that is done stays in sight.
  have hrest : ∀ (front : List Char) (c : Char) (cs : List Char),
      (cs.zipIdx (front.length + 1)).flatMap (fun p =>
        if opensWord (front ++ c :: cs) p.2 then ['_', p.1] else [p.1]) = separatedAfter c cs := by
    intro front c cs
    induction cs generalizing front c with
    | nil => rfl
    | cons d cs ih =>
      have hopens : opensWord (front ++ c :: d :: cs) (front.length + 1) = startsWord c d cs.head? := by
        have hafter : (front ++ c :: d :: cs)[front.length + 1 + 1]? = cs.head? := by
          rw [List.getElem?_append_right (by omega), Nat.add_assoc, Nat.add_sub_cancel_left,
            List.getElem?_cons_succ, List.getElem?_cons_succ, List.head?_eq_getElem?]
        simp [opensWord, hafter]
      have ih := ih (front ++ [c]) d
      rw [List.append_assoc, List.singleton_append, List.length_append, List.length_singleton] at ih
      rw [List.zipIdx_cons, List.flatMap_cons, hopens, ih, separatedAfter]
  have hall := hrest [] c cs
  rw [separated, List.zipIdx_cons, List.flatMap_cons]
  exact congrArg (c :: ·) hall

theorem isUpper_excludes {c : Char} (h : c.isUpper = true) : c.isLower = false ∧ c.isDigit = false := by
  have halnum : c.isAlphanum = true := Bool.or_eq_true_iff.2 (.inl (Bool.or_eq_true_iff.2 (.inl h)))
  exact of_ascii (p := fun c => c.isUpper = true → c.isLower = false ∧ c.isDigit = false)
    (by decide +kernel) (toNat_lt_of_isAlphanum halnum) h

/-- A capital that has got its underscore is no small letter, so it may be passed over. -/
theorem breakCapitals_cons (c : Char) (cs : List Char) :
    breakCapitals (c :: cs) = c :: capitalsAfter c cs := by
  induction h : cs.length using Nat.strongRecOn generalizing c cs with
  | ind n ih =>
    subst h
    match cs with
    | [] => simp [breakCapitals, capitalsAfter]
    | d :: rest =>
      rw [breakCapitals, capitalsAfter]
      split
      · rename_i hbreak
        obtain ⟨-, hupper⟩ := Bool.and_eq_true_iff.1 hbreak
        obtain ⟨hlower, hdigit⟩ := isUpper_excludes hupper
        cases rest with
        | nil => simp [breakCapitals, capitalsAfter]
        | cons e rest =>
          rw [ih rest.length (by simp only [List.length_cons]; omega) e rest rfl]
          simp [capitalsAfter, hlower, hdigit]
      · rw [ih rest.length (by simp) d rest rfl]
        rfl

/-- No underscore goes into a run of small letters. -/
theorem after_small {small : List Char} (h : ∀ c ∈ small, c.isLower = true) (before : Char)
    (rest : List Char) :
    capitalsAfter before (small ++ rest) = small ++ capitalsAfter (small.getLastD before) rest ∧
      separatedAfter before (small ++ rest) = small ++ separatedAfter (small.getLastD before) rest := by
  induction small generalizing before with
  | nil => exact ⟨rfl, rfl⟩
  | cons c small ih =>
    have hupper : c.isUpper = false := by
      by_contra hnot
      have hlower := (isUpper_excludes (by simpa using hnot)).1
      simp [h c (by simp)] at hlower
    obtain ⟨hcapitals, hseparated⟩ := ih (fun d hd => h d (by simp [hd])) c
    rw [List.cons_append, capitalsAfter, separatedAfter, hcapitals, hseparated, List.getLastD_cons]
    simp [startsWord, hupper]

theorem isLower_getLastD {small : List Char} (h : ∀ c ∈ small, c.isLower = true) (hne : small ≠ [])
    (before : Char) : (small.getLastD before).isLower = true := by
  rw [List.getLastD_eq_getLast?, List.getLast?_eq_some_getLast hne]
  exact h _ (List.getLast_mem hne)

/-- Where the first pass finds no word, one starts only behind a small letter or a digit. -/
theorem startsWord_of_no_word {before c : Char} {after : Option Char}
    (h : ¬(before ≠ '\n' ∧ c.isUpper = true ∧ after.any Char.isLower = true)) :
    startsWord before c after = ((before.isLower || before.isDigit) && c.isUpper) := by
  cases hupper : c.isUpper with
  | false => simp [startsWord, hupper]
  | true =>
    cases hsmall : after.any Char.isLower with
    | false => simp [startsWord, hupper, hsmall]
    | true =>
      have hline : before = '\n' := by simpa [hupper, hsmall] using h
      simp [startsWord, hupper, hline]

theorem capitalsAfter_small_cons {last c : Char} (hlast : last.isLower = true) {rest rest' : List Char}
    (h : capitalsAfter c rest = separatedAfter c rest') :
    capitalsAfter last (c :: rest) = separatedAfter last (c :: rest') := by
  rw [capitalsAfter, separatedAfter, h]
  simp [startsWord, hlast]

/-- The second pass puts in what the first one has left out, and nothing twice. -/
theorem capitalsAfter_breakWords (c : Char) (cs : List Char) :
    ∃ rest, breakWords (c :: cs) = c :: rest ∧ capitalsAfter c rest = separatedAfter c cs := by
  induction h : cs.length using Nat.strongRecOn generalizing c cs with
  | ind n ih =>
    subst h
    match cs with
    | [] => exact ⟨[], by simp [breakWords], rfl⟩
    | d :: rest =>
      rw [breakWords]
      split
      · rename_i hword
        obtain ⟨hline, hupper, hsmall⟩ := hword
        refine ⟨_, rfl, ?_⟩
        have hlower : ∀ e ∈ rest.takeWhile Char.isLower, e.isLower = true :=
          List.all_eq_true.1 List.all_takeWhile
        have hne : rest.takeWhile Char.isLower ≠ [] := by
          cases rest with
          | nil => simp at hsmall
          | cons e rest => simp [show e.isLower = true by simpa using hsmall]
        have hlast := isLower_getLastD hlower hne d
        have hcapitals := (after_small hlower d (breakWords (rest.dropWhile Char.isLower))).1
        have hseparated := (after_small hlower d (rest.dropWhile Char.isLower)).2
        rw [List.takeWhile_append_dropWhile] at hseparated
        generalize (rest.takeWhile Char.isLower).getLastD d = last at hlast hcapitals hseparated
        have hstart : startsWord c d rest.head? = true := by simp [startsWord, hupper, hsmall, hline]
        -- Behind the word the first pass starts anew, with a small letter in front.
        have hbehind : capitalsAfter last (breakWords (rest.dropWhile Char.isLower)) =
            separatedAfter last (rest.dropWhile Char.isLower) := by
          cases hdrop : rest.dropWhile Char.isLower with
          | nil => simp [breakWords, capitalsAfter, separatedAfter]
          | cons e more =>
            have hle := (List.dropWhile_sublist Char.isLower (l := rest)).length_le
            rw [hdrop, List.length_cons] at hle
            obtain ⟨after, hafter, hsame⟩ := ih more.length (by simp; omega) e more rfl
            rw [hafter, capitalsAfter_small_cons hlast hsame]
        have hunderscore : capitalsAfter c ('_' :: d :: (rest.takeWhile Char.isLower ++
            breakWords (rest.dropWhile Char.isLower))) = '_' :: d :: capitalsAfter d
              (rest.takeWhile Char.isLower ++ breakWords (rest.dropWhile Char.isLower)) := by
          simp [capitalsAfter]
        rw [hunderscore, hcapitals, hbehind, separatedAfter, hstart, hseparated]
        rfl
      · rename_i hword
        obtain ⟨after, hafter, hsame⟩ := ih rest.length (by simp) d rest rfl
        refine ⟨_, rfl, ?_⟩
        rw [hafter, capitalsAfter, hsame, separatedAfter, startsWord_of_no_word hword]

/-- Two passes put in the underscores of one. -/
theorem breakCapitals_breakWords (cs : List Char) : breakCapitals (breakWords cs) = separated cs := by
  cases cs with
  | nil => simp [breakWords, breakCapitals, separated]
  | cons c cs =>
    obtain ⟨rest, hrest, hsame⟩ := capitalsAfter_breakWords c cs
    rw [hrest, breakCapitals_cons, hsame, separated_eq_separatedAfter]

/-- Where there are no capitals there is nothing to separate. -/
theorem separated_of_small {cs : List Char} (h : ∀ c ∈ cs, c.isUpper = false) : separated cs = cs := by
  have hrest : ∀ (before : Char) (cs : List Char), (∀ c ∈ cs, c.isUpper = false) →
      separatedAfter before cs = cs := by
    intro before cs h
    induction cs generalizing before with
    | nil => rfl
    | cons c cs ih => simp [separatedAfter, startsWord, h c, ih c fun d hd => h d (by simp [hd])]
  cases cs with
  | nil => rfl
  | cons c cs => rw [separated_eq_separatedAfter, hrest c cs fun d hd => h d (by simp [hd])]

theorem mem_separated {cs : List Char} {c : Char} (h : c ∈ separated cs) : c = '_' ∨ c ∈ cs := by
  obtain ⟨⟨d, i⟩, hd, hc⟩ := List.mem_flatMap.1 h
  have hmem : d ∈ cs := List.fst_mem_of_mem_zipIdx hd
  simp only at hc
  split at hc
  · rcases List.mem_cons.1 hc with rfl | hc
    · exact .inl rfl
    · exact .inr (List.mem_singleton.1 hc ▸ hmem)
  · exact .inr (List.mem_singleton.1 hc ▸ hmem)

theorem camelToSnake_eq_lower (s : String) :
    camelToSnake s = lower (String.ofList (separated s.toList)) := by
  rw [camelToSnake, breakCapitals_breakWords, lower, String.toList_ofList]

/-- ASCII text whose capitals have become small letters is left as it is. -/
theorem camelToSnake_of_small {s : String} (hs : ∀ c ∈ s.toList, c.toNat < 128 ∧ c.isUpper = false) :
    camelToSnake s = s := by
  have hascii : ∀ c ∈ s.toList, c.toNat < 128 := fun c hc => (hs c hc).1
  have hlower : s.toList.map Char.toLower = s.toList := by
    rw [List.map_congr_left fun c hc => toLower_of_not_isUpper (hs c hc).1 (hs c hc).2, List.map_id']
  rw [camelToSnake_eq_lower, separated_of_small fun c hc => (hs c hc).2, String.ofList_toList, lower,
    lowerChars, lowerAfter_ascii [] hascii, hlower, String.ofList_toList]

/-- A name in small letters is its own text in lower case, with one underscore in front of each capital
behind the first character that follows on a small letter or a digit, or that a small letter follows on
where no line starts, and with no other change. A second time nothing is changed in ASCII text. -/
theorem camelToSnake_one_pass (s : String) :
    camelToSnake s = lower (String.ofList (separated s.toList)) ∧
      ((∀ c ∈ s.toList, c.toNat < 128) → camelToSnake (camelToSnake s) = camelToSnake s) := by
  refine ⟨camelToSnake_eq_lower s, ?_⟩
  intro hascii
  apply camelToSnake_of_small
  have hseparated : ∀ c ∈ separated s.toList, c.toNat < 128 := by
    intro c hc
    rcases mem_separated hc with rfl | hc
    · decide
    · exact hascii c hc
  have hlower : (camelToSnake s).toList = (separated s.toList).map Char.toLower := by
    rw [camelToSnake_eq_lower, lower, String.toList_ofList, String.toList_ofList, lowerChars,
      lowerAfter_ascii [] hseparated]
  intro c hc
  rw [hlower] at hc
  obtain ⟨d, hd, rfl⟩ := List.mem_map.1 hc
  exact of_ascii (p := fun d => d.toLower.toNat < 128 ∧ d.toLower.isUpper = false) (by decide +kernel)
    (hseparated d hd)

theorem camelToSnake_one_pass_reply :
    (∀ c ∈ "parseHTTPReply2XX\nOkNow".toList, c.toNat < 128) ∧
      camelToSnake "parseHTTPReply2XX\nOkNow" = "parse_http_reply2_xx\nok_now" ∧
      camelToSnake "parse_http_reply2_xx\nok_now" = "parse_http_reply2_xx\nok_now" := by
  have hall : ("parseHTTPReply2XX\nOkNow".toList.all (·.toNat < 128)) = true := by decide +kernel
  have hascii : ∀ c ∈ "parseHTTPReply2XX\nOkNow".toList, c.toNat < 128 :=
    fun c hc => of_decide_eq_true (List.all_eq_true.1 hall c hc)
  obtain ⟨honce, htwice⟩ := camelToSnake_one_pass "parseHTTPReply2XX\nOkNow"
  have hwords : camelToSnake "parseHTTPReply2XX\nOkNow" = "parse_http_reply2_xx\nok_now" := by
    rw [honce]
    decide +kernel
  refine ⟨hascii, hwords, ?_⟩
  rw [← hwords]
  exact htwice hascii

end Text
end SchemaForge
