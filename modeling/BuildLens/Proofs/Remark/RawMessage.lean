/-
Raw messages.

A diagnostic is listed under its raw message, so that message has to tell all of the diagnostic.
What the search gathers in front of a colon is a location: a run of characters that may stand in
one, perhaps behind a drive (`Gathered`).  Hence a remark is a piece of the text and has the shape
`IsRemark`, and the white space in front of it can be left out:

* `isRemark_of_mem_scan`: whatever the search finds has that shape and stands in the text;
* `IsRemark.matches_trimmed`: from a remark without the white space in front of it the same remark
  is found, and nothing else;
* `extract_rawMessage_of_mem`: so from a raw message its diagnostic is extracted again.

The main result is `extract_rawMessage`: diagnostics with one raw message are the same diagnostic,
and listing them by their raw messages loses none.
-/
import BuildLens.Proofs.Remark.Rendering
import BuildLens.Proofs.Remark.Sightings

namespace BuildLens.Remark

open BuildLens.Text

/-! ## The shape of a remark -/

/-- What has been gathered of a location in front of a text. -/
inductive Gathered (cs : List Char) : List Char → Prop
  /-- A run of characters of a location. -/
  | run {location : List Char} (h : ∀ c ∈ location, isLocationChar c = true) :
      Gathered cs location
  /-- A drive and a run; behind the drive stands a slash. -/
  | drive {letter : Char} {r : List Char} (hletter : isAsciiLetter letter = true)
      (hslash : startsWithSlash (r ++ cs) = true)
      (h : ∀ c ∈ r, isLocationChar c = true) : Gathered cs (letter :: ':' :: r)

/-- A location, a colon and a phrase. -/
inductive IsRemark (f : RemarkFamily) : Match → Prop
  | mk {location phrase code : List Char} (gathered : Gathered (':' :: phrase) location)
      (nonempty : location ≠ []) (hphrase : Phrase f code phrase) :
      IsRemark f ⟨location ++ ':' :: phrase, location, code⟩

lemma exists_slash {cs : List Char} (h : startsWithSlash cs = true) :
    ∃ slash rest, cs = slash :: rest ∧ (slash = '\\' ∨ slash = '/') := by
  cases cs with
  | nil => exact absurd h (by decide)
  | cons c cs =>
    simp only [startsWithSlash, List.head?_cons, Bool.or_eq_true, beq_iff_eq,
      Option.some.injEq] at h
    exact ⟨c, cs, rfl, h.symm⟩

/-- There is a drive only where a letter stands in front of the colon and a slash behind it. -/
lemma driveOf_cases (back cs : List Char) :
    driveOf back cs = [] ∨
      ∃ letter front, back = letter :: front ∧ isAsciiLetter letter = true ∧
        startsWithSlash cs = true ∧ driveOf back cs = [':', letter] := by
  cases back with
  | nil => exact .inl rfl
  | cons letter front =>
    simp only [driveOf]
    split
    next h =>
      obtain ⟨hletter, hslash⟩ := Bool.and_eq_true_iff.mp h
      exact .inr ⟨letter, front, rfl, hletter, hslash, rfl⟩
    next => exact .inl rfl

section Search

variable {f : RemarkFamily} {m : Match} {cs back : List Char}

namespace Gathered

lemma nil (cs : List Char) : Gathered cs [] :=
  .run fun _ hc => absurd hc List.not_mem_nil

lemma nil_reverse (cs : List Char) : Gathered cs ([] : List Char).reverse :=
  .nil cs

lemma of_driveOf (back cs : List Char) : Gathered cs (driveOf back cs).reverse := by
  rcases driveOf_cases back cs with hnone | ⟨letter, front, -, hletter, hslash, hdrive⟩
  · rw [hnone]
    exact .nil cs
  · rw [hdrive]
    exact .drive (r := []) hletter hslash fun _ hc => absurd hc List.not_mem_nil

/-- A location goes on with each character that may stand in one. -/
lemma concat {location : List Char} {c : Char} (h : Gathered (c :: cs) location)
    (hc : isLocationChar c = true) : Gathered cs (location ++ [c]) := by
  have hall : ∀ {xs}, (∀ x ∈ xs, isLocationChar x = true) →
      ∀ x ∈ xs ++ [c], isLocationChar x = true := by
    intro xs hxs
    exact List.forall_mem_append.mpr ⟨hxs, List.forall_mem_singleton.mpr hc⟩
  cases h with
  | run h => exact .run (hall h)
  | @drive letter rest hletter hslash h =>
    exact .drive (r := rest ++ [c]) hletter (by simpa using hslash) (hall h)

/-- Behind a location that ends at a colon anything may stand. -/
lemma colon {location cs' : List Char} (h : Gathered (':' :: cs) location) :
    Gathered (':' :: cs') location := by
  cases h with
  | run h => exact .run h
  | @drive letter rest hletter hslash h =>
    refine .drive hletter ?_ h
    -- the slash is no colon, so it stands in the run
    obtain ⟨slash, tail, hrest, hslash'⟩ := exists_slash hslash
    cases rest with
    | nil =>
      obtain ⟨rfl, -⟩ := List.cons.inj hrest
      exact absurd hslash' (by decide)
    | cons c rest => exact hslash

/-- The search gathers a whole location. -/
lemma scan {location : List Char} (h : Gathered (':' :: cs) location) :
    scan f 0 [] (location ++ ':' :: cs) = scan f 0 location.reverse (':' :: cs) := by
  cases h with
  | run h => rw [scan_location h, List.append_nil]
  | @drive letter rest hletter hslash h =>
    obtain ⟨slash, tail, hrest, hslash'⟩ := exists_slash hslash
    cases rest with
    | nil =>
      obtain ⟨rfl, -⟩ := List.cons.inj hrest
      exact absurd hslash' (by decide)
    | cons c rest =>
      obtain ⟨rfl, rfl⟩ := List.cons.inj hrest
      have hrest : ∀ x ∈ rest, isLocationChar x = true := fun x hx =>
        h x (List.mem_cons_of_mem c hx)
      rw [List.cons_append, List.cons_append, List.cons_append, scan_drive hletter hslash',
        scan_location hrest]
      simp

end Gathered

/-- Whatever is found at a colon is a remark that ends in the text. -/
lemma isRemark_of_atColon {n : Nat} (gathered : Gathered (':' :: cs) back.reverse)
    (h : atColon f back cs = some (m, n)) :
    IsRemark f m ∧ m.whole <+: back.reverse ++ ':' :: cs := by
  rw [atColon] at h
  split at h
  next => exact absurd h (by simp)
  next hback =>
    obtain ⟨r, hr, heq⟩ := Option.map_eq_some_iff.mp h
    obtain ⟨rfl, -⟩ := Prod.mk.inj heq
    obtain ⟨rest, rfl, hphrase⟩ := phrase_of_afterColon hr
    refine ⟨.mk gathered.colon (by simpa using hback) hphrase, rest, ?_⟩
    simp

/-- Whatever the search finds is a remark that stands in the text. -/
theorem isRemark_of_mem_scan {n : Nat} (gathered : Gathered cs back.reverse)
    (h : m ∈ scan f n back cs) : IsRemark f m ∧ m.whole <:+: back.reverse ++ cs := by
  induction cs generalizing n back with
  | nil => exact absurd h List.not_mem_nil
  | cons c cs ih =>
    have hskip : ∀ {n}, m ∈ scan f n [] cs →
        IsRemark f m ∧ m.whole <:+: back.reverse ++ c :: cs := by
      intro n hm
      obtain ⟨hremark, hpiece⟩ := ih (Gathered.nil_reverse cs) hm
      exact ⟨hremark, hpiece.trans ⟨back.reverse ++ [c], [], by simp⟩⟩
    cases n with
    | succ n => exact hskip h
    | zero =>
      rw [scan] at h
      split at h
      next hcolon =>
        subst hcolon
        split at h
        next m' n' hm' =>
          rcases List.mem_cons.mp h with rfl | h
          · obtain ⟨hremark, hprefix⟩ := isRemark_of_atColon gathered hm'
            exact ⟨hremark, hprefix.isInfix⟩
          · exact hskip h
        next =>
          obtain ⟨hremark, hpiece⟩ := ih (.of_driveOf back cs) h
          -- a drive is the end of what was gathered
          have hsuffix : (driveOf back cs).reverse <:+ back.reverse ++ [':'] := by
            rcases driveOf_cases back cs with hnone | ⟨letter, front, hback, -, -, hdrive⟩
            · rw [hnone]
              exact List.nil_suffix
            · rw [hdrive, hback]
              exact ⟨front.reverse, by simp⟩
          refine ⟨hremark, hpiece.trans ?_⟩
          obtain ⟨front, hfront⟩ := hsuffix
          exact ⟨front, [], by rw [List.append_nil, ← List.append_assoc, hfront]; simp⟩
      next =>
        split at h
        next hc =>
          have hnext : Gathered cs (c :: back).reverse := by
            rw [List.reverse_cons]
            exact gathered.concat hc
          simpa using ih hnext h
        next => exact hskip h

end Search

/-! ## Remarks without white space in front -/

section Trimmed

variable {f : RemarkFamily} {location phrase code : List Char}

/-- A location may lose white space in front. -/
lemma Gathered.trimStart {cs : List Char} (h : Gathered cs location) :
    Gathered cs (trimStart isWhite location) := by
  cases h with
  | run h => exact .run fun c hc => h c ((List.dropWhile_sublist isWhite).subset hc)
  | @drive letter rest hletter hslash h =>
    have hwhite := not_isWhite_of_isAsciiLetter hletter
    rw [Text.trimStart, List.dropWhile_cons_of_neg (by simp [hwhite])]
    exact .drive hletter hslash h

/-- Trimming a remark trims its location in front. -/
lemma trim_remark (hphrase : Phrase f code phrase) (hlocation : trimStart isWhite location ≠ []) :
    trim (location ++ ':' :: phrase) = trimStart isWhite location ++ ':' :: phrase := by
  have hlast := hphrase.last (trimStart isWhite location ++ [':'])
  rw [List.append_assoc, List.singleton_append] at hlast
  have hfirst : ∀ c ∈ (trimStart isWhite location ++ ':' :: phrase).head?,
      isWhite c = false := by
    rw [List.head?_append_of_ne_nil _ hlocation]
    exact isWhite_head?_trimStart
  have hwhite : ∀ c ∈ location.takeWhile isWhite, isWhite c = true := fun c hc =>
    List.mem_takeWhile_imp hc
  have htrim := trim_surrounded (b := []) hwhite (by simp) hfirst hlast
  rwa [List.append_nil, ← List.append_assoc, trimStart, List.takeWhile_append_dropWhile,
    ← trimStart] at htrim

/-- From a remark, without the white space in front of it, nothing else is found. -/
lemma matches_trimmed (htidy : f.Tidy) (gathered : Gathered (':' :: phrase) location)
    (hphrase : Phrase f code phrase) (hlocation : trimStart isWhite location ≠ []) :
    matches? f (trimStart isWhite location ++ ':' :: phrase) =
      [⟨trimStart isWhite location ++ ':' :: phrase, trimStart isWhite location, code⟩] := by
  have hback : (trimStart isWhite location).reverse ≠ [] := by simpa using hlocation
  have hfound := scan_remark htidy hback hphrase []
  rw [List.append_nil, List.reverse_reverse] at hfound
  rw [matches?, gathered.trimStart.scan, hfound]
  rfl

end Trimmed

/-! ## The parts of a diagnostic -/

section Parts

variable {f : RemarkFamily} {m : Match} {d : Diagnostic} {location path : List Char} {line : Nat}

lemma splitLocation_eq_some (h : splitLocation location = some (path, line)) :
    location ≠ [] ∧ path ≠ [] ∧ trim path = path ∧ 1 ≤ line ∧ line < Nat.pow 2 32 := by
  rw [splitLocation] at h
  obtain ⟨⟨whole, ds⟩, hsplit, h⟩ := Option.bind_eq_some_iff.mp h
  obtain ⟨n, hread, h⟩ := Option.bind_eq_some_iff.mp h
  obtain ⟨-, hbound⟩ := Option.filter_eq_some_iff.mp hread
  have hlocation : location ≠ [] := by
    rintro rfl
    exact absurd hsplit (by simp [splitParentheses])
  split at h
  next => exact absurd h (by simp)
  next hvalid =>
    obtain ⟨rfl, rfl⟩ := Prod.mk.inj (Option.some.inj h)
    obtain ⟨hpath, hline⟩ : ¬ trim whole = [] ∧ ¬ n = 0 := by simpa using hvalid
    have hword : n ≤ maxWord32 := by simpa using hbound
    refine ⟨hlocation, hpath, trim_trim whole, Nat.one_le_iff_ne_zero.mpr hline, ?_⟩
    exact Nat.lt_of_le_of_lt hword (by decide)

/-- What a diagnostic says, as far as every diagnostic says it. -/
structure WellFormed (d : Diagnostic) : Prop where
  path_ne_nil : d.filePath.toList ≠ []
  path_trimmed : trim d.filePath.toList = d.filePath.toList
  line_pos : 1 ≤ d.line
  line_lt : d.line < Nat.pow 2 32
  code : Digits d.code.toList

lemma IsRemark.wellFormed (hm : IsRemark f m) (h : m.diagnostic = some d) : WellFormed d := by
  cases hm with
  | mk gathered nonempty hphrase =>
    obtain ⟨⟨path, line⟩, hsplit, hd⟩ := Option.bind_eq_some_iff.mp h
    obtain rfl := Option.some.inj hd
    obtain ⟨-, hpath, htrim, hpos, hlt⟩ := splitLocation_eq_some hsplit
    obtain ⟨-, -, -, -, -, hcode⟩ := hphrase
    refine ⟨?_, ?_, hpos, hlt, ?_⟩ <;> rw [String.toList_ofList]
    exacts [hpath, htrim, hcode]

/-- From a raw message its diagnostic is extracted, and it is a piece of the remark. -/
lemma IsRemark.extract_trim (htidy : f.Tidy) (hm : IsRemark f m)
    (h : m.diagnostic = some d) :
    d.rawMessage.toList <:+: m.whole ∧ extract f d.rawMessage.toList = [d] := by
  cases hm with
  | @mk location phrase code gathered nonempty hphrase =>
    obtain ⟨⟨path, line⟩, hsplit, hd⟩ := Option.bind_eq_some_iff.mp h
    obtain rfl := Option.some.inj hd
    obtain ⟨hne, -⟩ := splitLocation_eq_some hsplit
    -- the location is not all white space, or there would be no path in it
    have hlocation : trimStart isWhite location ≠ [] := by
      intro hnil
      refine hne ?_
      dsimp only
      rw [← trim_trimStart, hnil, trim_nil]
    have htrim := trim_remark hphrase hlocation
    rw [String.toList_ofList]
    dsimp only
    constructor
    · rw [htrim]
      refine List.IsSuffix.isInfix ⟨location.takeWhile isWhite, ?_⟩
      rw [← List.append_assoc, trimStart, List.takeWhile_append_dropWhile]
    · have hagain : trim (trimStart isWhite location ++ ':' :: phrase) =
          trimStart isWhite location ++ ':' :: phrase := by
        rw [← htrim, trim_trim]
      rw [htrim, extract, matches_trimmed htidy gathered hphrase hlocation, List.filterMap_cons,
        Match.diagnostic]
      dsimp only at hsplit ⊢
      rw [trim_trimStart, hsplit, hagain]
      rfl

end Parts

/-! ## Diagnostics of a text -/

section

variable {f : RemarkFamily} {cs : List Char} {d : Diagnostic}

lemma exists_isRemark (h : d ∈ extract f cs) :
    ∃ m, IsRemark f m ∧ m.whole <:+: cs ∧ m.diagnostic = some d := by
  obtain ⟨m, hm, hd⟩ := List.mem_filterMap.mp h
  obtain ⟨hremark, hpiece⟩ := isRemark_of_mem_scan (.nil_reverse cs) hm
  exact ⟨m, hremark, hpiece, hd⟩

lemma wellFormed_of_mem (h : d ∈ extract f cs) : WellFormed d := by
  obtain ⟨m, hremark, -, hd⟩ := exists_isRemark h
  exact hremark.wellFormed hd

/-- A raw message stands in the text, and its diagnostic is extracted from it. -/
theorem extract_rawMessage_of_mem (htidy : f.Tidy) (h : d ∈ extract f cs) :
    d.rawMessage.toList <:+: cs ∧ extract f d.rawMessage.toList = [d] := by
  obtain ⟨m, hremark, hpiece, hd⟩ := exists_isRemark h
  obtain ⟨hmessage, hextract⟩ := hremark.extract_trim htidy hd
  exact ⟨hmessage.trans hpiece, hextract⟩

/-- Diagnostics with the same raw message are the same. -/
theorem eq_of_rawMessage_eq (htidy : f.Tidy) {cs' : List Char} {d' : Diagnostic}
    (h : d ∈ extract f cs) (h' : d' ∈ extract f cs') (heq : d.rawMessage = d'.rawMessage) :
    d = d' := by
  obtain ⟨-, hd⟩ := extract_rawMessage_of_mem htidy h
  obtain ⟨-, hd'⟩ := extract_rawMessage_of_mem htidy h'
  rw [heq, hd'] at hd
  exact (List.singleton_inj.mp hd).symm

end

/-! ## Task lists -/

/-- The list that has taken in the diagnostics of some texts, one text after the other. -/
def listed (f : RemarkFamily) (texts : List (List Char)) : TaskList :=
  texts.foldl (fun t cs => (t.addAll (extract f cs)).1) TaskList.empty

section

variable {f : RemarkFamily} {d : Diagnostic}

lemma listed_concat (f : RemarkFamily) (texts : List (List Char)) (cs : List Char) :
    listed f (texts ++ [cs]) = ((listed f texts).addAll (extract f cs)).1 := by
  rw [listed, List.foldl_append]
  rfl

lemma listed_items (f : RemarkFamily) (texts : List (List Char)) :
    (listed f texts).items = firstSightings (texts.flatMap (extract f)) := by
  induction texts using List.reverseRecOn with
  | nil => rfl
  | append_singleton texts cs ih =>
    rw [listed_concat, TaskList.addAll_firstSightings ih, List.flatMap_append,
      List.flatMap_singleton]

/-- Among diagnostics that raw messages tell apart, the first sightings are all. -/
lemma mem_firstSightings_iff {ds : List Diagnostic}
    (h : ∀ d ∈ ds, ∀ e ∈ ds, d.rawMessage = e.rawMessage → d = e) :
    d ∈ firstSightings ds ↔ d ∈ ds := by
  have hsub : firstSightings ds ⊆ ds := by
    clear h
    induction ds using unseen_induction with
    | nil => exact List.Subset.refl _
    | cons d ds ih =>
      rw [firstSightings_cons]
      exact List.cons_subset_cons d fun e he => List.filter_subset_self ds (ih he)
  refine ⟨fun hd => hsub hd, fun hd => ?_⟩
  obtain ⟨e, he, heq⟩ := List.mem_map.mp
    ((mem_map_firstSightings ds).mpr (List.mem_map_of_mem hd))
  rwa [← h e (hsub he) d hd heq]

/-- A list of extracted diagnostics has a raw message only with its diagnostic. -/
lemma lists_iff_mem {t : TaskList} (h : ∀ e ∈ t.items, d.rawMessage = e.rawMessage → d = e) :
    t.lists d.rawMessage = true ↔ d ∈ t.items := by
  rw [TaskList.lists, List.any_eq_true]
  constructor
  · rintro ⟨e, he, heq⟩
    rwa [h e he (eq_of_beq heq).symm]
  · exact fun hd => ⟨d, hd, beq_self_eq_true _⟩

/-- Nothing that was extracted is missing in a task list. -/
lemma mem_listed_iff (htidy : f.Tidy) (texts : List (List Char)) :
    d ∈ (listed f texts).items ↔ ∃ cs ∈ texts, d ∈ extract f cs := by
  rw [listed_items, mem_firstSightings_iff, List.mem_flatMap]
  intro d hd e he heq
  obtain ⟨cs, -, hd⟩ := List.mem_flatMap.mp hd
  obtain ⟨cs', -, he⟩ := List.mem_flatMap.mp he
  exact eq_of_rawMessage_eq htidy hd he heq

end

/-- Both families are tidy. -/
lemma tidy_of_known {f : RemarkFamily}
    (hf : f = .loopNotVectorized ∨ f = .loopNotParallelized) : f.Tidy := by
  rcases hf with rfl | rfl <;> exact ⟨by decide, by decide, by decide⟩

/-- A raw message stands for its diagnostic.  Of both families and of every text, each diagnostic
is well-formed, and its raw message is a piece of the text from which that diagnostic is extracted
again, and nothing else.  So diagnostics with one raw message are the same, whatever texts they
come from, and listing them by their raw messages loses none: neither among the diagnostics of one
text nor in a task list that takes in one text after the other. -/
theorem extract_rawMessage {f : RemarkFamily}
    (hf : f = .loopNotVectorized ∨ f = .loopNotParallelized) :
    (∀ cs, ∀ d ∈ extract f cs,
      d.rawMessage.toList <:+: cs ∧ extract f d.rawMessage.toList = [d] ∧ WellFormed d) ∧
    (∀ cs cs', ∀ d ∈ extract f cs, ∀ d' ∈ extract f cs',
      d.rawMessage = d'.rawMessage → d = d') ∧
    (∀ cs d, d ∈ extractUnique f cs ↔ d ∈ extract f cs) ∧
    ∀ texts,
      (∀ d, d ∈ (listed f texts).items ↔ ∃ cs ∈ texts, d ∈ extract f cs) ∧
      ∀ cs, ∀ d ∈ extract f cs,
        (listed f texts).lists d.rawMessage = true ↔ d ∈ (listed f texts).items := by
  have htidy := tidy_of_known hf
  refine ⟨fun cs d hd => ?_, fun cs cs' d hd d' hd' heq => ?_, fun cs d => ?_, fun texts => ?_⟩
  · obtain ⟨hpiece, hextract⟩ := extract_rawMessage_of_mem htidy hd
    exact ⟨hpiece, hextract, wellFormed_of_mem hd⟩
  · exact eq_of_rawMessage_eq htidy hd hd' heq
  · rw [extractUnique_eq, mem_firstSightings_iff]
    exact fun d hd e he heq => eq_of_rawMessage_eq htidy hd he heq
  · refine ⟨fun d => mem_listed_iff htidy texts, fun cs d hd => lists_iff_mem ?_⟩
    intro e he heq
    obtain ⟨cs', -, he⟩ := (mem_listed_iff htidy texts).mp he
    exact eq_of_rawMessage_eq htidy hd he heq

/-- A remark with white space on both sides of its location, and with parentheses in its path. -/
def oddRemark : List Char :=
  ("7>\u00a0 ) b (1)\u2003.cpp(3)\u3000" ++
    ": info C5012: loop not parallelized due to reason '1007'").toList

/-- The diagnostic of `oddRemark`. -/
def oddDiagnostic : Diagnostic :=
  { rawMessage :=
      ") b (1)\u2003.cpp(3)\u3000: info C5012: loop not parallelized due to reason '1007'"
    filePath := ") b (1)\u2003.cpp"
    line := 3
    code := "1007" }

/-- `extract_rawMessage` of a remark that is trimmed in front, after a text without remarks. -/
theorem extract_rawMessage_of_oddRemark :
    oddDiagnostic.rawMessage.toList <:+: oddRemark ∧
    extract .loopNotParallelized oddDiagnostic.rawMessage.toList = [oddDiagnostic] ∧
    WellFormed oddDiagnostic ∧
    oddDiagnostic ∈ extractUnique .loopNotParallelized oddRemark ∧
    oddDiagnostic ∈ (listed .loopNotParallelized ["Compiling...".toList, oddRemark]).items := by
  obtain ⟨hextract, -, hunique, hlisted⟩ :=
    extract_rawMessage (f := .loopNotParallelized) (.inr rfl)
  have hmem : oddDiagnostic ∈ extract .loopNotParallelized oddRemark := by decide +kernel
  obtain ⟨hpiece, hagain, hwell⟩ := hextract oddRemark oddDiagnostic hmem
  exact ⟨hpiece, hagain, hwell, (hunique _ _).mpr hmem,
    ((hlisted _).1 _).mpr ⟨oddRemark, by simp, hmem⟩⟩

end BuildLens.Remark
