/-
What is written is there to be read.

A place in a tree is given by the names that lead to it from the root.  What stands there is what
the root reaches along them (`Entry.reach`), and a trail that was followed from the root consists of
nothing else (`Trail.along`).  To put something at a place that is no directory changes what is
reached there (`Entry.reach_putAt`) and leaves every directory a directory
(`Entry.reach_dir_putAt`), so that the same path leads to the same place afterwards.  Hence

* `FileTree.read_write`: at a path that led to nothing, or to a readable file, what was written is
  read;
* `FileTree.freshPath_free`: the path of a new file leads to nothing, as there are more numbers
  than names in a directory.
-/
import Mathlib.Data.List.Nodup
import Mathlib.Data.List.Perm.Subperm
import BuildLens.Files.Tree
import BuildLens.Proofs.Text.Numeral

namespace BuildLens

open BuildLens.Text

/-- Two steps succeed if the first one does, and the second one with what came of it. -/
lemma bind_eq_ok_iff {ε α β : Type} {x : Except ε α} {next : α → Except ε β} {b : β} :
    x >>= next = .ok b ↔ ∃ a, x = .ok a ∧ next a = .ok b := by
  cases x <;> simp [bind, Except.bind]

/-! ## Places -/

namespace Entry

/-- What is reached along some names. -/
def reach : Entry → List String → Option Entry
  | e, [] => some e
  | .file _, _ :: _ => none
  | .directory es, name :: names => (es.lookup name).bind (reach · names)

/-- The entry after something is put at a place below it. -/
def putAt (e : Entry) : List String → Entry → Entry
  | [], x => x
  | name :: names, x => put name (putAt ((e.reach [name]).getD empty) names x) e

variable {e x : Entry} {name : String} {names target : List String} {es : List (String × Entry)}

@[simp] lemma reach_nil (e : Entry) : e.reach [] = some e := by
  cases e <;> rfl

lemma reach_cons (e : Entry) (name : String) (names : List String) :
    e.reach (name :: names) = (e.reach [name]).bind (reach · names) := by
  cases e with
  | file f => rfl
  | directory es => simp [reach]

lemma reach_append (e : Entry) (names more : List String) :
    e.reach (names ++ more) = (e.reach names).bind (reach · more) := by
  induction names generalizing e with
  | nil => simp
  | cons name names ih =>
    rw [List.cons_append, reach_cons, reach_cons e name names, Option.bind_assoc]
    exact congrArg _ (funext fun child => ih child)

lemma lookup_filter_of_ne {name other : String} (h : name ≠ other) (es : List (String × Entry)) :
    (es.filter (·.1 != other)).lookup name = es.lookup name := by
  induction es with
  | nil => rfl
  | cons entry es ih =>
    obtain ⟨key, e⟩ := entry
    by_cases hkey : key = other
    · have hname : (name == key) = false := by simpa [hkey] using h
      rw [List.filter_cons_of_neg (by simp [hkey]), ih, List.lookup_cons, hname]
    · rw [List.filter_cons_of_pos (by simpa using hkey), List.lookup_cons, List.lookup_cons, ih]

/-- What was put under a name is reached there. -/
lemma reach_put_self (name : String) (x dir : Entry) : (put name x dir).reach [name] = some x := by
  simp [put, reach]

/-- Under other names there is what was there before. -/
lemma reach_put_of_ne {other : String} (h : other ≠ name) (x dir : Entry) :
    (put name x dir).reach [other] = dir.reach [other] := by
  have hne : (other == name) = false := by simpa using h
  rw [put, reach, List.lookup_cons, hne]
  cases dir with
  | file f => rfl
  | directory es =>
    rw [entries, reach]
    exact congrArg (Option.bind · _) (lookup_filter_of_ne h es)

/-- What was put at a place is reached there. -/
lemma reach_putAt (e : Entry) (names : List String) (x : Entry) :
    (e.putAt names x).reach names = some x := by
  induction names generalizing e with
  | nil => exact reach_nil x
  | cons name names ih => rw [putAt, reach_cons, reach_put_self, Option.bind_some, ih]

/-- To put something at a place that is no directory leaves the directories where they are. -/
lemma reach_dir_putAt (h : ∀ es, e.reach target ≠ some (.directory es))
    (hdir : e.reach names = some (.directory es)) :
    ∃ es', (e.putAt target x).reach names = some (.directory es') := by
  induction target generalizing e names with
  | nil =>
    -- the root is no directory, so there is none below it
    cases e with
    | directory es' => exact absurd (reach_nil _) (h es')
    | file f => cases names <;> simp [reach] at hdir
  | cons name target ih =>
    rw [putAt]
    cases names with
    | nil => exact ⟨_, reach_nil _⟩
    | cons other names =>
      rw [reach_cons] at hdir ⊢
      obtain ⟨child, hchild, hdir⟩ := Option.bind_eq_some_iff.mp hdir
      by_cases hname : other = name
      · subst hname
        rw [reach_put_self, Option.bind_some, hchild, Option.getD_some]
        refine ih (fun es' hes' => h es' ?_) hdir
        rw [reach_cons, hchild, Option.bind_some, hes']
      · rw [reach_put_of_ne hname, hchild]
        exact ⟨_, hdir⟩

/-- To put something below a place is to put the changed entry there. -/
lemma putAt_concat (e : Entry) (names : List String) (name : String) (x : Entry) :
    e.putAt (names ++ [name]) x =
      e.putAt names (put name x ((e.reach names).getD empty)) := by
  induction names generalizing e with
  | nil => simp [putAt]
  | cons first names ih =>
    have hbelow : (((e.reach [first]).getD empty).reach names).getD empty =
        (e.reach (first :: names)).getD empty := by
      rw [reach_cons e first names]
      cases e.reach [first] with
      | some child => rfl
      | none => cases names <;> simp [empty, reach]
    rw [List.cons_append, putAt, putAt, ih, hbelow]

end Entry

/-! ## Trails -/

namespace Trail

/-- The trail to a place below a root, given by the names that lead there, last one first. -/
def along (root : Entry) : List String → Trail
  | [] => .root root
  | name :: above => .step (along root above) name (root.reach (above.reverse ++ [name]))

/-- The place that the parts of a path lead to from another place. -/
def walk : List String → List String → List String
  | place, [] => place
  | place, part :: parts =>
    if part = "." then walk place parts
    else if part = ".." then walk place.tail parts
    else walk (part :: place) parts

variable {root : Entry} {place parts : List String}

@[simp] lemma along_here (root : Entry) (place : List String) :
    (along root place).here = root.reach place.reverse := by
  cases place with
  | nil => exact (Entry.reach_nil root).symm
  | cons name above => rw [List.reverse_cons]; rfl

lemma along_parent (root : Entry) (place : List String) :
    (along root place).parent = along root place.tail := by
  cases place <;> rfl

/-- To put something at the end of a trail is to put it at the place. -/
lemma put_along (root : Entry) (place : List String) (x : Entry) :
    (along root place).put x = root.putAt place.reverse x := by
  induction place generalizing x with
  | nil => rfl
  | cons name above ih =>
    rw [along, put, ih, along_here, List.reverse_cons, Entry.putAt_concat]

lemma step_along {es : List (String × Entry)} {name : String}
    (h : root.reach place.reverse = some (.directory es)) :
    step (along root place) name (es.lookup name) = along root (name :: place) := by
  rw [along, Entry.reach_append, h, Option.bind_some, Entry.reach]
  cases es.lookup name <;> simp

/-- A path that can be followed leads to its place.  From another root it leads to the same place,
if there is a directory wherever there was one. -/
lemma follow_along {trail : Trail} (h : (along root place).follow parts = .ok trail) :
    trail = along root (walk place parts) ∧
      ∀ other : Entry, (∀ names es, root.reach names = some (.directory es) →
          ∃ es', other.reach names = some (.directory es')) →
        (along other place).follow parts = .ok (along other (walk place parts)) := by
  induction parts generalizing place with
  | nil => exact ⟨(Except.ok.inj h).symm, fun _ _ => rfl⟩
  | cons part parts ih =>
    rw [follow, along_here] at h
    split at h
    next => exact absurd h (by simp)
    next => exact absurd h (by simp)
    next es hdir =>
      have hstep : ∀ other : Entry, (∀ names es, root.reach names = some (.directory es) →
          ∃ es', other.reach names = some (.directory es')) →
          ∃ es', other.reach place.reverse = some (.directory es') ∧
            (along other place).follow (part :: parts) =
              if part = "." then (along other place).follow parts
              else if part = ".." then (along other place).parent.follow parts
              else if maxNameSize < part.utf8ByteSize then .error .nameTooLong
              else (step (along other place) part (es'.lookup part)).follow parts := by
        intro other hdirs
        obtain ⟨es', hes'⟩ := hdirs _ es hdir
        refine ⟨es', hes', ?_⟩
        rw [follow, along_here, hes']
      rw [walk]
      split_ifs at h ⊢ with hdot hdots hsize
      · obtain ⟨htrail, hagain⟩ := ih h
        refine ⟨htrail, fun other hdirs => ?_⟩
        obtain ⟨es', -, hfollow⟩ := hstep other hdirs
        rw [hfollow, if_pos hdot, hagain other hdirs]
      · rw [along_parent] at h
        obtain ⟨htrail, hagain⟩ := ih h
        refine ⟨htrail, fun other hdirs => ?_⟩
        obtain ⟨es', -, hfollow⟩ := hstep other hdirs
        rw [hfollow, if_neg hdot, if_pos hdots, along_parent, hagain other hdirs]
      · rw [step_along hdir] at h
        obtain ⟨htrail, hagain⟩ := ih h
        refine ⟨htrail, fun other hdirs => ?_⟩
        obtain ⟨es', hes', hfollow⟩ := hstep other hdirs
        rw [hfollow, if_neg hdot, if_neg hdots, if_neg hsize, step_along hes', hagain other hdirs]

lemma follow_append (trail : Trail) (parts more : List String) :
    trail.follow (parts ++ more) = (trail.follow parts).bind (·.follow more) := by
  induction parts generalizing trail with
  | nil => rfl
  | cons part parts ih =>
    rw [List.cons_append, follow, follow]
    split
    · rfl
    · rfl
    · split_ifs
      · exact ih trail
      · exact ih trail.parent
      · rfl
      · exact ih _

/-- A name is followed from a directory only. -/
lemma follow_name {trail trail' : Trail} {name : String} (h : trail.follow [name] = .ok trail')
    (hdot : name ≠ ".") (hdots : name ≠ "..") :
    ∃ es, trail.here = some (.directory es) ∧ trail'.here = es.lookup name := by
  rw [follow] at h
  split at h
  next => exact absurd h (by simp)
  next => exact absurd h (by simp)
  next es hdir =>
    rw [if_neg hdot, if_neg hdots] at h
    split at h
    · exact absurd h (by simp)
    · obtain rfl := Except.ok.inj h
      exact ⟨es, hdir, rfl⟩

end Trail

/-! ## Reading what was written -/

namespace FileTree

variable {t t' : FileTree} {path : String} {trail : Trail} {content : Bytes} {x : Entry}

lemma resolve_eq_ok_iff : t.resolve path = .ok trail ↔
    refusal? path = none ∧
      (Trail.root t.root).follow (t.startOf path ++ partsOf path) = .ok trail := by
  rw [resolve, resolveParts]
  cases refusal? path with
  | some e => simp
  | none =>
    cases (Trail.root t.root).follow (t.startOf path ++ partsOf path) <;> simp [Except.mapError]

lemma lookup_eq_ok_iff : t.lookup path = .ok x ↔
    ∃ trail, t.resolve path = .ok trail ∧ trail.here = some x := by
  rw [lookup, bind_eq_ok_iff]
  refine exists_congr fun trail => and_congr_right fun _ => ?_
  cases trail.here <;> simp

lemma read_eq_ok_iff : t.read path = .ok content ↔
    ∃ f, t.lookup path = .ok (.file f) ∧ f.readable = true ∧ f.content = content := by
  rw [read, bind_eq_ok_iff]
  constructor
  · rintro ⟨e, hlookup, he⟩
    cases e with
    | directory es => exact absurd he (by simp)
    | file f =>
      dsimp only at he
      split_ifs at he with hreadable
      exact ⟨f, hlookup, hreadable, Except.ok.inj he⟩
  · rintro ⟨f, hlookup, hreadable, rfl⟩
    exact ⟨.file f, hlookup, if_pos hreadable⟩

/-- What was put where there was no directory is what the path leads to. -/
lemma lookup_put (h : t.resolve path = .ok trail)
    (hfree : ∀ es, trail.here ≠ some (.directory es)) :
    FileTree.lookup { t with root := trail.put x } path = .ok x := by
  obtain ⟨hrefusal, hfollow⟩ := resolve_eq_ok_iff.mp h
  have hroot : (Trail.along t.root []).follow (t.startOf path ++ partsOf path) = .ok trail :=
    hfollow
  obtain ⟨rfl, hagain⟩ := Trail.follow_along hroot
  rw [Trail.along_here] at hfree
  rw [Trail.put_along]
  refine lookup_eq_ok_iff.mpr ⟨_, resolve_eq_ok_iff.mpr ⟨hrefusal, hagain _ ?_⟩, ?_⟩
  · exact fun names es hdir => Entry.reach_dir_putAt hfree hdir
  · rw [Trail.along_here, Entry.reach_putAt]

/-- What was written is read, if the path led to nothing or to a readable file. -/
theorem read_write (h : t.write path content = .ok t')
    (hreadable : ∀ f, t.lookup path = .ok (.file f) → f.readable = true) :
    t'.read path = .ok content := by
  rw [write, bind_eq_ok_iff] at h
  obtain ⟨trail, hresolve, h⟩ := h
  have hread : ∀ f : File, f.content = content → f.readable = true →
      (∀ es, trail.here ≠ some (.directory es)) →
      FileTree.read { t with root := trail.put (.file f) } path = .ok content :=
    fun f hcontent hf hfree => read_eq_ok_iff.mpr ⟨f, lookup_put hresolve hfree, hf, hcontent⟩
  split at h
  next => exact absurd h (by simp)
  next f hhere =>
    obtain rfl := Except.ok.inj h
    have hf := hreadable f (lookup_eq_ok_iff.mpr ⟨trail, hresolve, hhere⟩)
    exact hread _ rfl hf (by simp [hhere])
  next hhere =>
    obtain rfl := Except.ok.inj h
    exact hread _ rfl rfl (by simp [hhere])

end FileTree

/-! ## Names in a directory -/

namespace Path

variable {directory name : String}

lemma toList_join (directory : String) (hname : '/' ∉ name.toList) :
    (join directory name).toList = directory.toList ++ name.toList ∧
        (directory.toList = [] ∨ directory.toList.getLast? = some '/') ∨
      (join directory name).toList = directory.toList ++ '/' :: name.toList := by
  have habsolute : isAbsolute name.toList = false := by
    rw [isAbsolute, beq_eq_false_iff_ne]
    exact fun h => hname (List.mem_of_mem_head? h)
  rw [join, habsolute, if_neg Bool.false_ne_true]
  split_ifs with hend
  · refine .inl ⟨String.toList_append, hend.imp_left fun hempty => ?_⟩
    rw [String.isEmpty_iff.mp hempty]
    rfl
  · right
    rw [String.toList_append, String.toList_append, List.append_assoc]
    rfl

/-- The path of something in a directory goes on where that of the directory ends. -/
lemma exists_toList_join (directory : String) (hname : '/' ∉ name.toList) :
    ∃ between, (join directory name).toList = directory.toList ++ (between ++ name.toList) := by
  rcases toList_join directory hname with ⟨hjoin, -⟩ | hjoin
  · exact ⟨[], hjoin⟩
  · exact ⟨['/'], hjoin⟩

/-- The parts of a text between its slashes. -/
def pieces (cs : List Char) : List String :=
  ((cs.splitOn '/').map String.ofList).filter (· != "")

lemma pieces_append (cs ds : List Char) : pieces (cs ++ '/' :: ds) = pieces cs ++ pieces ds := by
  have hsplit : (cs ++ '/' :: ds).splitOn '/' = cs.splitOn '/' ++ ds.splitOn '/' :=
    List.splitOnP_append_cons cs ds rfl
  rw [pieces, hsplit, List.map_append, List.filter_append]
  rfl

lemma pieces_of_not_mem {cs : List Char} (hcs : '/' ∉ cs) (hne : cs ≠ []) :
    pieces cs = [String.ofList cs] := by
  have hsplit : cs.splitOn '/' = [cs] :=
    List.splitOnP_eq_singleton fun c hc => by simpa using ne_of_mem_of_not_mem hc hcs
  have hname : String.ofList cs ≠ "" := by
    intro h
    rw [← String.toList_inj, String.toList_ofList] at h
    exact hne h
  rw [pieces, hsplit, List.map_singleton, List.filter_eq_self]
  intro x hx
  rw [List.mem_singleton.mp hx]
  exact bne_iff_ne.mpr hname

/-- A name inside a directory is the last part of the path. -/
lemma parts_join (hname : '/' ∉ name.toList) (hne : name.toList ≠ []) :
    parts (join directory name) = parts directory ++ [name] := by
  have hpieces := pieces_of_not_mem hname hne
  rw [String.ofList_toList] at hpieces
  change pieces _ = pieces _ ++ _
  rcases toList_join directory hname with ⟨hjoin, hnil | hslash⟩ | hjoin
  · rw [hjoin, hnil, List.nil_append, hpieces]
    rfl
  · obtain ⟨cs, hcs⟩ := List.getLast?_eq_some_iff.mp hslash
    rw [hjoin, hcs, List.append_assoc, List.singleton_append, pieces_append, pieces_append, hpieces]
    simp [pieces]
  · rw [hjoin, pieces_append, hpieces]

end Path

namespace FileTree

variable {t : FileTree} {directory start ending : String}

/-- The names that a new file may get. -/
def candidate (start ending : String) (n : Nat) : String :=
  start ++ String.ofList (zeroPadded 6 n) ++ ending

lemma toList_candidate (start ending : String) (n : Nat) :
    (candidate start ending n).toList = start.toList ++ zeroPadded 6 n ++ ending.toList := by
  rw [candidate, String.toList_append, String.toList_append, String.toList_ofList]

lemma candidate_injective (start ending : String) :
    Function.Injective (candidate start ending) := by
  intro n k h
  rw [← String.toList_inj, toList_candidate, toList_candidate] at h
  have hdigits := List.append_cancel_left (List.append_cancel_right h)
  rw [← numeralValue_zeroPadded 6 n, hdigits, numeralValue_zeroPadded]

lemma slash_not_mem_candidate (hstart : '/' ∉ start.toList) (hending : '/' ∉ ending.toList)
    (n : Nat) : '/' ∉ (candidate start ending n).toList := by
  intro h
  rw [toList_candidate, List.mem_append, List.mem_append] at h
  rcases h with (h | h) | h
  · exact hstart h
  · exact absurd (isAsciiDigit_of_mem_zeroPadded h) (by decide)
  · exact hending h

/-- A candidate is the name of a file: it contains a digit. -/
lemma exists_digit_candidate (start ending : String) (n : Nat) :
    ∃ c ∈ (candidate start ending n).toList, isAsciiDigit c = true := by
  obtain ⟨c, hc⟩ := List.exists_mem_of_ne_nil _ (zeroPadded_ne_nil 6 n)
  refine ⟨c, ?_, isAsciiDigit_of_mem_zeroPadded hc⟩
  rw [toList_candidate]
  exact List.mem_append_left _ (List.mem_append_right _ hc)

lemma candidate_ne {other : String} (hother : ∀ c ∈ other.toList, isAsciiDigit c = false)
    (n : Nat) : candidate start ending n ≠ other := by
  rintro rfl
  obtain ⟨c, hc, hdigit⟩ := exists_digit_candidate start ending n
  rw [hother c hc] at hdigit
  contradiction

/-- The directory that a new file is made in, from the root on. -/
lemma isAbsolute_join_currentPath (t : FileTree) (directory : String) :
    Path.isAbsolute (Path.join t.currentPath directory).toList = true := by
  have hcurrent : t.currentPath.toList.head? = some '/' := by
    rw [currentPath, String.toList_append]
    rfl
  have hrest : ∀ rest : String, Path.isAbsolute (t.currentPath ++ rest).toList = true := by
    intro rest
    rw [Path.isAbsolute, String.toList_append, List.head?_append, hcurrent]
    rfl
  rw [Path.join]
  split_ifs with habsolute
  · exact habsolute
  · exact hrest _
  · rw [String.append_assoc]
    exact hrest _

lemma refusal?_eq_none_iff {path : String} : refusal? path = none ↔
    '\x00' ∉ path.toList ∧ path ≠ "" ∧ path.utf8ByteSize ≤ maxPathSize := by
  rw [refusal?]
  split_ifs with hzero hempty hsize
  · simp [List.contains_iff_mem.mp hzero]
  · simp [String.isEmpty_iff.mp hempty]
  · simp [hsize]
  · simp only [true_iff]
    exact ⟨fun h => hzero (List.contains_iff_mem.mpr h),
      fun h => hempty (String.isEmpty_iff.mpr h), Nat.le_of_not_lt hsize⟩

lemma exists?_iff {path : String} : t.exists? path = true ↔ ∃ e, t.lookup path = .ok e := by
  rw [exists?]
  cases t.lookup path <;> simp [Except.isOk, Except.toBool]

lemma startOf_join {name : String} (habsolute : Path.isAbsolute directory.toList = true)
    (hslash : '/' ∉ name.toList) : t.startOf (Path.join directory name) = [] := by
  obtain ⟨between, hlist⟩ := Path.exists_toList_join directory hslash
  rw [Path.isAbsolute, beq_iff_eq] at habsolute
  rw [startOf, Path.isAbsolute, hlist, List.head?_append, habsolute]
  rfl

lemma partsOf_join {name : String} (hslash : '/' ∉ name.toList) (hne : name.toList ≠ []) :
    partsOf (Path.join directory name) = Path.parts directory ++ [name] := by
  obtain ⟨between, hlist⟩ := Path.exists_toList_join directory hslash
  have hlast : (Path.join directory name).toList.getLast? ≠ some '/' := by
    rw [hlist, ← List.append_assoc, List.getLast?_append_of_ne_nil _ hne]
    exact fun h => hslash (List.mem_of_getLast? h)
  rw [partsOf, if_neg hlast, Path.parts_join hslash hne]

/-- A path that is not refused is not refused without its last name. -/
lemma refusal?_of_join {name : String} (hdirectory : directory ≠ "") (hslash : '/' ∉ name.toList)
    (h : refusal? (Path.join directory name) = none) : refusal? directory = none := by
  obtain ⟨between, hlist⟩ := Path.exists_toList_join directory hslash
  obtain ⟨hzero, -, hsize⟩ := refusal?_eq_none_iff.mp h
  refine refusal?_eq_none_iff.mpr ⟨fun h => hzero ?_, hdirectory, ?_⟩
  · rw [hlist]
    exact List.mem_append_left _ h
  · have hbytes : Path.join directory name =
        directory ++ String.ofList (between ++ name.toList) := by
      rw [← String.toList_inj, hlist, String.toList_append, String.toList_ofList]
    rw [hbytes, String.utf8ByteSize_append] at hsize
    omega

/-- A directory is where its parts lead to, with or without a slash at the end of its path. -/
lemma resolve_of_parts {parent : Trail} {es : List (String × Entry)}
    (habsolute : Path.isAbsolute directory.toList = true) (hrefusal : refusal? directory = none)
    (hfollow : (Trail.root t.root).follow (Path.parts directory) = .ok parent)
    (hdir : parent.here = some (.directory es)) : t.resolve directory = .ok parent := by
  refine resolve_eq_ok_iff.mpr ⟨hrefusal, ?_⟩
  rw [startOf, habsolute, if_pos rfl, List.nil_append, partsOf]
  split_ifs
  · rw [Trail.follow_append, hfollow]
    change parent.follow ["."] = _
    rw [Trail.follow, hdir]
    rfl
  · exact hfollow

/-- If a name leads to something in a directory, it is one of the names there. -/
lemma mem_names_of_exists {name : String} (habsolute : Path.isAbsolute directory.toList = true)
    (hslash : '/' ∉ name.toList) (hne : name.toList ≠ []) (hdot : name ≠ ".") (hdots : name ≠ "..")
    (h : t.exists? (Path.join directory name) = true) :
    ∃ es, t.lookup directory = .ok (.directory es) ∧ name ∈ es.map Prod.fst := by
  obtain ⟨e, hlookup⟩ := exists?_iff.mp h
  obtain ⟨trail, hresolve, hhere⟩ := lookup_eq_ok_iff.mp hlookup
  obtain ⟨hrefusal, hfollow⟩ := resolve_eq_ok_iff.mp hresolve
  have hdirectory : directory ≠ "" := by
    rintro rfl
    exact absurd habsolute (by decide)
  -- the last name is looked for where the other parts lead to
  rw [startOf_join habsolute hslash, partsOf_join hslash hne, List.nil_append,
    Trail.follow_append] at hfollow
  obtain ⟨parent, hparent, hlast⟩ := bind_eq_ok_iff.mp hfollow
  obtain ⟨es, hdir, hname⟩ := Trail.follow_name hlast hdot hdots
  have hresolved := resolve_of_parts habsolute (refusal?_of_join hdirectory hslash hrefusal) hparent
    hdir
  refine ⟨es, lookup_eq_ok_iff.mpr ⟨parent, hresolved, hdir⟩, ?_⟩
  rw [hhere] at hname
  obtain ⟨front, back, rfl, -⟩ := List.lookup_eq_some_iff.mp hname.symm
  simp

/-- The path of a new file leads to nothing. -/
theorem freshPath_free (t : FileTree) (directory : String) (hstart : '/' ∉ start.toList)
    (hending : '/' ∉ ending.toList) :
    t.exists? (t.freshPath directory start ending) = false := by
  have habsolute := isAbsolute_join_currentPath t directory
  rw [freshPath]
  dsimp only
  set directory := Path.join t.currentPath directory
  change t.exists? (Path.join directory (candidate start ending
    (((List.range (t.entryCount directory + 1)).find? fun n =>
      !t.exists? (Path.join directory (candidate start ending n))).getD 0))) = false
  cases hfind : (List.range (t.entryCount directory + 1)).find?
      fun n => !t.exists? (Path.join directory (candidate start ending n)) with
  | some n =>
    have hfree := List.find?_some hfind
    simpa using hfree
  | none =>
    -- all candidates are names of the directory, but they are too many
    exfalso
    have htaken : ∀ n < t.entryCount directory + 1,
        ∃ es, t.lookup directory = .ok (.directory es) ∧
          candidate start ending n ∈ es.map Prod.fst := by
      intro n hn
      have hexists := List.find?_eq_none.mp hfind n (List.mem_range.mpr hn)
      obtain ⟨c, hc, -⟩ := exists_digit_candidate start ending n
      have hdot : candidate start ending n ≠ "." :=
        candidate_ne (List.forall_iff_forall_mem.mp (by decide)) n
      have hdots : candidate start ending n ≠ ".." :=
        candidate_ne (List.forall_iff_forall_mem.mp (by decide)) n
      exact mem_names_of_exists habsolute (slash_not_mem_candidate hstart hending n)
        (List.ne_nil_of_mem hc) hdot hdots (by simpa using hexists)
    obtain ⟨es, hes, -⟩ := htaken 0 (Nat.succ_pos _)
    have hcount : t.entryCount directory = es.length := by
      rw [entryCount, hes]
      rfl
    have hnodup : ((List.range (es.length + 1)).map (candidate start ending)).Nodup :=
      List.nodup_range.map (candidate_injective start ending)
    have hsubset : (List.range (es.length + 1)).map (candidate start ending) ⊆ es.map Prod.fst := by
      intro name hname
      obtain ⟨n, hn, rfl⟩ := List.mem_map.mp hname
      obtain ⟨es', hes', hmem⟩ := htaken n (hcount ▸ List.mem_range.mp hn)
      rw [hes] at hes'
      obtain ⟨rfl⟩ := hes'
      exact hmem
    have hlength := (hnodup.subperm hsubset).length_le
    rw [List.length_map, List.length_map, List.length_range] at hlength
    exact Nat.not_succ_le_self _ hlength

end FileTree

end BuildLens
