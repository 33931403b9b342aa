/-
Lossy reading.

Reading cuts bytes into pieces, one for each character: the form of the character, or something
ill-formed, for which the replacement stands.  Where a piece ends depends on nothing but whether
the next byte goes on with it, so a byte that starts a character starts a piece.  `mend` is what is
there when the text that was read is written again.  Then

* `decode_append`: in front of the start of a character the reading can be cut;
* `decode_encode_append`: a text that was written is read, whatever stands behind it;
* `exists_of_decode_eq`: what is read without replacements stands there;
* `mend_append_encode` and `exists_of_mend_eq`: a text without replacements occurs in the mended
  bytes exactly where it occurs in the bytes themselves;
* `count_mend`: mending adds no lines and takes none away.
-/
import Mathlib.Data.List.Basic
import Mathlib.Tactic.SplitIfs
import BuildLens.Text.Utf8

namespace BuildLens.Text.Utf8

/-! ## Classes of bytes -/

section Bytes

variable {a b : UInt8}

lemma isTail_iff : isTail b ↔ 0x80 ≤ b.toNat ∧ b.toNat ≤ 0xBF := by
  simp [isTail, UInt8.le_iff_toNat_le]

lemma leadsTwo_iff : leadsTwo a ↔ 0xC2 ≤ a.toNat ∧ a.toNat ≤ 0xDF := by
  simp [leadsTwo, UInt8.le_iff_toNat_le]

lemma leadsThree_iff : leadsThree a ↔ 0xE0 ≤ a.toNat ∧ a.toNat ≤ 0xEF := by
  simp [leadsThree, UInt8.le_iff_toNat_le]

lemma leadsFour_iff : leadsFour a ↔ 0xF0 ≤ a.toNat ∧ a.toNat ≤ 0xF4 := by
  simp [leadsFour, UInt8.le_iff_toNat_le]

lemma follows_iff : follows a b ↔
    (0x80 ≤ b.toNat ∧ b.toNat ≤ 0xBF) ∧ (a.toNat = 0xE0 → 0xA0 ≤ b.toNat) ∧
      (a.toNat = 0xED → b.toNat ≤ 0x9F) ∧ (a.toNat = 0xF0 → 0x90 ≤ b.toNat) ∧
      (a.toNat = 0xF4 → b.toNat ≤ 0x8F) := by
  simp only [follows, beq_iff_eq, ← UInt8.toNat_inj, UInt8.reduceToNat]
  split_ifs <;> simp [isTail, UInt8.le_iff_toNat_le] <;> omega

lemma ascii_iff : a < 0x80 ↔ a.toNat < 0x80 := by
  simp [UInt8.lt_iff_toNat_lt]

lemma isTail_of_ascii (ha : a < 0x80) : isTail a = false := by
  rw [ascii_iff] at ha
  rw [← Bool.not_eq_true, isTail_iff]
  omega

lemma isTail_of_follows (h : follows a b) : isTail b :=
  isTail_iff.mpr (follows_iff.mp h).1

lemma not_ascii_of_isTail (h : isTail b) : ¬ b < 0x80 := by
  rw [isTail_iff] at h
  rw [ascii_iff]
  omega

lemma follows_of_not_isTail (h : isTail b = false) : follows a b = false :=
  Bool.eq_false_iff.mpr fun hfollows => Bool.eq_false_iff.mp h (isTail_of_follows hfollows)

end Bytes

/-! ## Characters and their forms -/

section Forms

variable {a b c d : UInt8}

lemma val_toNat_ofNat {n : Nat} (h : n.isValidChar) : (Char.ofNat n).val.toNat = n := by
  rw [Char.ofNat, dif_pos h]
  rfl

lemma encode_ascii (ha : a < 0x80) : String.utf8EncodeChar (Char.ofNat a.toNat) = [a] := by
  rw [ascii_iff] at ha
  simp only [String.utf8EncodeChar, val_toNat_ofNat (show a.toNat.isValidChar by omega)]
  rw [if_pos (by omega), UInt8.ofNat_toNat]

lemma encode_char₂ (ha : leadsTwo a) (hb : isTail b) :
    String.utf8EncodeChar (char₂ a b) = [a, b] := by
  rw [leadsTwo_iff] at ha
  rw [isTail_iff] at hb
  have hv : (char₂ a b).val.toNat = a.toNat % 0x20 * 0x40 + b.toNat % 0x40 :=
    val_toNat_ofNat (by omega)
  simp only [String.utf8EncodeChar, hv]
  rw [if_neg (by omega), if_pos (by omega)]
  simp only [List.cons.injEq, ← UInt8.toNat_inj, UInt8.toNat_ofNat', and_true]
  omega

lemma encode_char₃ (ha : leadsThree a) (hb : follows a b) (hc : isTail c) :
    String.utf8EncodeChar (char₃ a b c) = [a, b, c] := by
  rw [leadsThree_iff] at ha
  rw [follows_iff] at hb
  rw [isTail_iff] at hc
  have hv : (char₃ a b c).val.toNat =
      a.toNat % 0x10 * 0x1000 + b.toNat % 0x40 * 0x40 + c.toNat % 0x40 :=
    val_toNat_ofNat (by omega)
  simp only [String.utf8EncodeChar, hv]
  rw [if_neg (by omega), if_neg (by omega), if_pos (by omega)]
  simp only [List.cons.injEq, ← UInt8.toNat_inj, UInt8.toNat_ofNat', and_true]
  omega

lemma encode_char₄ (ha : leadsFour a) (hb : follows a b) (hc : isTail c) (hd : isTail d) :
    String.utf8EncodeChar (char₄ a b c d) = [a, b, c, d] := by
  rw [leadsFour_iff] at ha
  rw [follows_iff] at hb
  rw [isTail_iff] at hc hd
  have hv : (char₄ a b c d).val.toNat = a.toNat % 0x08 * 0x40000 + b.toNat % 0x40 * 0x1000 +
      c.toNat % 0x40 * 0x40 + d.toNat % 0x40 :=
    val_toNat_ofNat (by omega)
  simp only [String.utf8EncodeChar, hv]
  rw [if_neg (by omega), if_neg (by omega), if_neg (by omega)]
  simp only [List.cons.injEq, ← UInt8.toNat_inj, UInt8.toNat_ofNat', and_true]
  omega

variable (t : Bytes)

lemma decode_ascii (ha : a < 0x80) : decode (a :: t) = Char.ofNat a.toNat :: decode t := by
  rw [decode.eq_def]
  simp [ha]

lemma decode_two (ha : leadsTwo a) (hb : isTail b) :
    decode (a :: b :: t) = char₂ a b :: decode t := by
  have hascii : ¬ a < 0x80 := by
    rw [ascii_iff]
    rw [leadsTwo_iff] at ha
    omega
  rw [decode.eq_def]
  simp [hascii, ha, hb]

lemma decode_three (ha : leadsThree a) (hb : follows a b) (hc : isTail c) :
    decode (a :: b :: c :: t) = char₃ a b c :: decode t := by
  have hother : ¬ a < 0x80 ∧ ¬ leadsTwo a := by
    rw [ascii_iff, leadsTwo_iff]
    rw [leadsThree_iff] at ha
    omega
  rw [decode.eq_def]
  simp [hother, ha, hb, hc]

lemma decode_four (ha : leadsFour a) (hb : follows a b) (hc : isTail c) (hd : isTail d) :
    decode (a :: b :: c :: d :: t) = char₄ a b c d :: decode t := by
  have hother : ¬ a < 0x80 ∧ ¬ leadsTwo a ∧ ¬ leadsThree a := by
    rw [ascii_iff, leadsTwo_iff, leadsThree_iff]
    rw [leadsFour_iff] at ha
    omega
  rw [decode.eq_def]
  simp [hother, ha, hb, hc, hd]

/-- A character that was written is read, whatever stands behind it. -/
lemma decode_utf8EncodeChar (x : Char) :
    decode (String.utf8EncodeChar x ++ t) = x :: decode t := by
  have hvalid : x.toNat.isValidChar := x.valid
  have hchar : ∀ n, n = x.toNat → Char.ofNat n = x := by
    rintro n rfl
    exact Char.ofNat_toNat x
  simp only [String.utf8EncodeChar, Char.toNat_val]
  split_ifs <;> simp only [List.cons_append, List.nil_append]
  · rw [decode_ascii, hchar]
    · rw [UInt8.toNat_ofNat']
      omega
    · rw [ascii_iff, UInt8.toNat_ofNat']
      omega
  · rw [decode_two, char₂, hchar]
    · simp only [UInt8.toNat_ofNat']
      omega
    · rw [leadsTwo_iff, UInt8.toNat_ofNat']
      omega
    · rw [isTail_iff, UInt8.toNat_ofNat']
      omega
  · rw [decode_three, char₃, hchar]
    · simp only [UInt8.toNat_ofNat']
      omega
    · rw [leadsThree_iff, UInt8.toNat_ofNat']
      omega
    · simp only [follows_iff, UInt8.toNat_ofNat']
      omega
    · rw [isTail_iff, UInt8.toNat_ofNat']
      omega
  · rw [decode_four, char₄, hchar]
    · simp only [UInt8.toNat_ofNat']
      omega
    · rw [leadsFour_iff, UInt8.toNat_ofNat']
      omega
    · simp only [follows_iff, UInt8.toNat_ofNat']
      omega
    · rw [isTail_iff, UInt8.toNat_ofNat']
      omega
    · rw [isTail_iff, UInt8.toNat_ofNat']
      omega

/-- A text that was written is read, whatever stands behind it. -/
theorem decode_encode_append (cs : List Char) : decode (encode cs ++ t) = cs ++ decode t := by
  induction cs with
  | nil => rfl
  | cons c cs ih => rw [encode_cons, List.append_assoc, decode_utf8EncodeChar, ih, List.cons_append]

@[simp] lemma decode_encode (cs : List Char) : decode (encode cs) = cs := by
  simpa using decode_encode_append [] cs

end Forms

/-! ## Starts of characters -/

/-- Bytes that go on with nothing that stands in front of them. -/
def Fresh (t : Bytes) : Prop :=
  ∀ b ∈ t.head?, isTail b = false

lemma fresh_nil : Fresh [] := by
  rintro b ⟨⟩

lemma Fresh.left {s t : Bytes} (h : Fresh (s ++ t)) : Fresh s := by
  intro b hb
  refine h b ?_
  rw [List.head?_append, Option.mem_def.mp hb]
  rfl

/-- The form of a character is one byte that starts it and others that go on. -/
lemma exists_utf8EncodeChar (c : Char) :
    ∃ b rest, String.utf8EncodeChar c = b :: rest ∧ isTail b = false ∧ ∀ r ∈ rest, isTail r := by
  have hvalid : c.toNat.isValidChar := c.valid
  simp only [String.utf8EncodeChar, Char.toNat_val, ← Bool.not_eq_true, isTail_iff]
  split_ifs <;> refine ⟨_, _, rfl, ?_, ?_⟩ <;>
    simp only [UInt8.toNat_ofNat', List.mem_cons, List.not_mem_nil, or_false, forall_eq_or_imp,
      forall_eq, false_imp_iff, implies_true] <;> omega

lemma fresh_encode_append {cs : List Char} (hcs : cs ≠ []) (t : Bytes) :
    Fresh (encode cs ++ t) := by
  obtain ⟨c, cs, rfl⟩ := List.exists_cons_of_ne_nil hcs
  obtain ⟨b, rest, hform, hb, -⟩ := exists_utf8EncodeChar c
  rintro b' hb'
  rw [encode_cons, hform] at hb'
  obtain rfl : b = b' := by simpa using hb'
  exact hb

lemma encode_ne_nil {cs : List Char} (hcs : cs ≠ []) : encode cs ≠ [] := by
  intro h
  exact hcs (by rw [← decode_encode cs, h, decode_nil])

/-- The form of a text can be cut in front of the start of a character only where the text can. -/
lemma exists_of_encode_eq {cs : List Char} {x z : Bytes} (h : encode cs = x ++ z) (hz : Fresh z) :
    ∃ ds es, cs = ds ++ es ∧ encode ds = x ∧ encode es = z := by
  induction cs generalizing x with
  | nil =>
    obtain ⟨rfl, rfl⟩ := List.append_eq_nil_iff.mp h.symm
    exact ⟨[], [], rfl, rfl, rfl⟩
  | cons c cs ih =>
    rw [encode_cons] at h
    rcases List.append_eq_append_iff.mp h with ⟨x', rfl, hcs⟩ | ⟨w, hform, hw⟩
    · obtain ⟨ds, es, rfl, rfl, rfl⟩ := ih hcs
      exact ⟨c :: ds, es, rfl, rfl, rfl⟩
    -- the cut is in the form of `c`, so it is in front of it or behind it
    obtain ⟨b, rest, hb, -, htail⟩ := exists_utf8EncodeChar c
    rcases w with _ | ⟨w, ws⟩
    · rw [List.append_nil] at hform
      exact ⟨[c], cs, rfl, by simp [encode, hform], hw.symm⟩
    · rcases x with _ | ⟨y, ys⟩
      · exact ⟨[], c :: cs, rfl, rfl, by rw [encode_cons, hform, hw, List.nil_append]⟩
      · have hmem : w ∈ rest := by
          rw [hb, List.cons_append] at hform
          rw [(List.cons.inj hform).2]
          simp
        have hnot : isTail w = false := hz w (by rw [hw]; rfl)
        rw [htail w hmem] at hnot
        contradiction

/-! ## Pieces -/

/-- What is read as one character: its form or, for the replacement, up to three bytes none of
which is a character of its own. -/
def Piece (c : Char) (p : Bytes) : Prop :=
  p = String.utf8EncodeChar c ∨ c = replacement ∧ p ≠ [] ∧ p.length ≤ 3 ∧ ∀ b ∈ p, ¬ b < 0x80

/-- In front of `t`, and of whatever else does not go on with it, `p` is read as `c`. -/
structure Reads (p : Bytes) (c : Char) (t : Bytes) : Prop where
  piece : Piece c p
  decode_append : ∀ t', Fresh t' ∨ t'.head? = t.head? → decode (p ++ t') = c :: decode t'

lemma Piece.ne_nil {c : Char} {p : Bytes} (h : Piece c p) : p ≠ [] := by
  rcases h with rfl | ⟨-, hp, -, -⟩
  · obtain ⟨b, rest, hform, -⟩ := exists_utf8EncodeChar c
    simp [hform]
  · exact hp

section Reads

variable {a b c d : UInt8} {p t : Bytes}

lemma Reads.form {x : Char} (hp : String.utf8EncodeChar x = p) : Reads p x t := by
  subst hp
  exact ⟨.inl rfl, fun t' _ => decode_utf8EncodeChar t' x⟩

/-- A sequence that breaks off where no byte that goes on with it stands. -/
lemma Reads.broken (goesOn : UInt8 → Bool) (htail : ∀ b, isTail b = false → goesOn b = false)
    (hp : p ≠ []) (hlength : p.length ≤ 3) (hascii : ∀ b ∈ p, ¬ b < 0x80)
    (hdecode : ∀ t', (∀ b ∈ t'.head?, goesOn b = false) →
      decode (p ++ t') = replacement :: decode t')
    (ht : ∀ b ∈ t.head?, goesOn b = false) : Reads p replacement t where
  piece := .inr ⟨rfl, hp, hlength, hascii⟩
  decode_append := by
    rintro t' (hfresh | hhead)
    · exact hdecode t' fun b hb => htail b (hfresh b hb)
    · exact hdecode t' (hhead ▸ ht)

lemma head_cases (goesOn : UInt8 → Bool) (s : Bytes) :
    (∃ b t, s = b :: t ∧ goesOn b) ∨ ∀ b ∈ s.head?, goesOn b = false := by
  rcases s with _ | ⟨b, t⟩
  · exact .inr fun b hb => nomatch hb
  · cases hb : goesOn b with
    | true => exact .inl ⟨b, t, rfl, hb⟩
    | false => exact .inr (by simpa using hb)

/-- The first byte of a sequence of three or four, with nothing that goes on with it. -/
lemma Reads.broken_first (ha : ¬ a < 0x80) (htwo : ¬ leadsTwo a)
    (hlong : leadsThree a ∨ leadsFour a) (ht : ∀ b ∈ t.head?, follows a b = false) :
    Reads [a] replacement t := by
  have hascii : ∀ x ∈ [a], ¬ x < 0x80 := List.forall_mem_singleton.mpr ha
  refine .broken (follows a) (fun _ => follows_of_not_isTail) (by simp) (by simp) hascii ?_ ht
  intro t' ht'
  rw [List.singleton_append, decode.eq_def]
  simp only [if_neg ha]
  by_cases hthree : leadsThree a <;> cases t' <;> simp_all

lemma Reads.broken_second (ha : ¬ a < 0x80) (htwo : ¬ leadsTwo a)
    (hlong : leadsThree a ∨ leadsFour a) (hb : follows a b) (ht : Fresh t) :
    Reads [a, b] replacement t := by
  have hb' := not_ascii_of_isTail (isTail_of_follows hb)
  refine .broken isTail (fun _ h => h) (by simp) (by simp) ?_ ?_ ht
  · rintro x (_ | ⟨_, _ | ⟨_, ⟨⟩⟩⟩) <;> assumption
  · intro t' ht'
    simp only [List.cons_append, List.nil_append]
    rw [decode.eq_def]
    simp only [if_neg ha]
    by_cases hthree : leadsThree a <;> cases t' <;> simp_all

lemma exists_reads_two (ha : ¬ a < 0x80) (htwo : leadsTwo a) (s : Bytes) :
    ∃ x p t, a :: s = p ++ t ∧ Reads p x t := by
  rcases head_cases isTail s with ⟨b, s, rfl, hb⟩ | hs
  · exact ⟨_, [a, b], s, rfl, .form (encode_char₂ htwo hb)⟩
  have hascii : ∀ x ∈ [a], ¬ x < 0x80 := List.forall_mem_singleton.mpr ha
  refine ⟨_, [a], s, rfl, .broken isTail (fun _ h => h) (by simp) (by simp) hascii ?_ hs⟩
  intro t' ht'
  rw [List.singleton_append, decode.eq_def]
  simp only [if_neg ha]
  cases t' <;> simp_all

lemma exists_reads_three (ha : ¬ a < 0x80) (htwo : ¬ leadsTwo a) (hthree : leadsThree a)
    (s : Bytes) : ∃ x p t, a :: s = p ++ t ∧ Reads p x t := by
  rcases head_cases (follows a) s with ⟨b, s, rfl, hb⟩ | hs
  · rcases head_cases isTail s with ⟨c, s, rfl, hc⟩ | hs
    · exact ⟨_, [a, b, c], s, rfl, .form (encode_char₃ hthree hb hc)⟩
    · exact ⟨_, [a, b], s, rfl, .broken_second ha htwo (.inl hthree) hb hs⟩
  · exact ⟨_, [a], s, rfl, .broken_first ha htwo (.inl hthree) hs⟩

lemma exists_reads_four (ha : ¬ a < 0x80) (htwo : ¬ leadsTwo a) (hthree : ¬ leadsThree a)
    (hfour : leadsFour a) (s : Bytes) : ∃ x p t, a :: s = p ++ t ∧ Reads p x t := by
  rcases head_cases (follows a) s with ⟨b, s, rfl, hb⟩ | hs
  · rcases head_cases isTail s with ⟨c, s, rfl, hc⟩ | hs
    · rcases head_cases isTail s with ⟨d, s, rfl, hd⟩ | hs
      · exact ⟨_, [a, b, c, d], s, rfl, .form (encode_char₄ hfour hb hc hd)⟩
      have hb' := not_ascii_of_isTail (isTail_of_follows hb)
      have hc' := not_ascii_of_isTail hc
      refine ⟨_, [a, b, c], s, rfl, .broken isTail (fun _ h => h) (by simp) (by simp) ?_ ?_ hs⟩
      · rintro x (_ | ⟨_, _ | ⟨_, _ | ⟨_, ⟨⟩⟩⟩⟩) <;> assumption
      · intro t' ht'
        simp only [List.cons_append, List.nil_append]
        rw [decode.eq_def]
        simp only [if_neg ha]
        cases t' <;> simp_all
    · exact ⟨_, [a, b], s, rfl, .broken_second ha htwo (.inr hfour) hb hs⟩
  · exact ⟨_, [a], s, rfl, .broken_first ha htwo (.inr hfour) hs⟩

/-- Bytes start with a piece. -/
theorem exists_reads (a : UInt8) (s : Bytes) : ∃ x p t, a :: s = p ++ t ∧ Reads p x t := by
  by_cases ha : a < 0x80
  · exact ⟨_, [a], s, rfl, .form (encode_ascii ha)⟩
  by_cases htwo : leadsTwo a
  · exact exists_reads_two ha htwo s
  by_cases hthree : leadsThree a
  · exact exists_reads_three ha htwo hthree s
  by_cases hfour : leadsFour a
  · exact exists_reads_four ha htwo hthree hfour s
  -- a byte that can stand in no text
  have hascii : ∀ x ∈ [a], ¬ x < 0x80 := List.forall_mem_singleton.mpr ha
  refine ⟨_, [a], s, rfl,
    .broken (fun _ => false) (fun _ _ => rfl) (by simp) (by simp) hascii ?_ (by simp)⟩
  intro t' _
  rw [List.singleton_append, decode.eq_def]
  simp [ha, htwo, hthree, hfour]

end Reads

lemma Reads.decode_self {p : Bytes} {c : Char} {t : Bytes} (h : Reads p c t) :
    decode (p ++ t) = c :: decode t :=
  h.decode_append t (.inr rfl)

/-- Induction on the pieces of a row of bytes. -/
theorem pieces_induction {P : Bytes → Prop} (nil : P [])
    (piece : ∀ p c t, Reads p c t → P t → P (p ++ t)) (bs : Bytes) : P bs := by
  induction hn : bs.length using Nat.strongRecOn generalizing bs with
  | _ n ih =>
    rcases bs with _ | ⟨a, s⟩
    · exact nil
    obtain ⟨c, p, t, hbs, hp⟩ := exists_reads a s
    have hlength : p.length + t.length = n := by
      rw [← hn, hbs, List.length_append]
    have hpos := List.length_pos_of_ne_nil hp.piece.ne_nil
    rw [hbs]
    exact piece p c t hp (ih t.length (by omega) t rfl)

/-! ## Cutting what is read -/

/-- The reading can be cut in front of the start of a character. -/
theorem decode_append {t : Bytes} (ht : Fresh t) (s : Bytes) :
    decode (s ++ t) = decode s ++ decode t := by
  induction s using pieces_induction with
  | nil => rfl
  | piece p c s hp ih =>
    have hnext : Fresh (s ++ t) ∨ (s ++ t).head? = s.head? := by
      cases s with
      | nil => exact .inl ht
      | cons b s => exact .inr rfl
    rw [List.append_assoc, hp.decode_append _ hnext, ih, hp.decode_self, List.cons_append]

/-- A byte that is a character of its own ends whatever stands in front of it. -/
theorem decode_append_ascii {a : UInt8} (ha : a < 0x80) (s t : Bytes) :
    decode (s ++ a :: t) = decode s ++ Char.ofNat a.toNat :: decode t := by
  have hfresh : Fresh (a :: t) := by
    rintro b ⟨⟩
    exact isTail_of_ascii ha
  rw [decode_append hfresh, decode_ascii t ha]

/-- Wherever a text that was read is cut, the bytes can be cut. -/
theorem exists_of_decode_eq_append {bs : Bytes} {cs ds : List Char} (h : decode bs = cs ++ ds) :
    ∃ s t, bs = s ++ t ∧ decode s = cs ∧ decode t = ds := by
  induction cs generalizing bs with
  | nil => exact ⟨[], bs, rfl, rfl, h⟩
  | cons c cs ih =>
    rcases bs with _ | ⟨a, bs⟩
    · simp at h
    obtain ⟨x, p, t, hbs, hp⟩ := exists_reads a bs
    rw [hbs, hp.decode_self, List.cons_append] at h
    obtain ⟨rfl, ht⟩ := List.cons.inj h
    obtain ⟨s, t, rfl, rfl, rfl⟩ := ih ht
    have hnext : Fresh s ∨ s.head? = (s ++ t).head? := by
      cases s with
      | nil => exact .inl fresh_nil
      | cons b s => exact .inr rfl
    exact ⟨p ++ s, t, by rw [hbs, List.append_assoc], hp.decode_append s hnext, rfl⟩

/-- What is read without replacements stands there in its form. -/
theorem exists_of_decode_eq {bs : Bytes} {cs ds : List Char} (h : decode bs = cs ++ ds)
    (hcs : replacement ∉ cs) : ∃ t, bs = encode cs ++ t ∧ decode t = ds := by
  induction cs generalizing bs with
  | nil => exact ⟨bs, rfl, h⟩
  | cons c cs ih =>
    have hc := List.ne_of_not_mem_cons hcs
    have hrest := List.not_mem_of_not_mem_cons hcs
    rcases bs with _ | ⟨a, bs⟩
    · simp at h
    obtain ⟨x, p, t, hbs, hp⟩ := exists_reads a bs
    rw [hbs, hp.decode_self, List.cons_append] at h
    obtain ⟨rfl, ht⟩ := List.cons.inj h
    obtain ⟨t, rfl, rfl⟩ := ih ht hrest
    rcases hp.piece with rfl | ⟨rfl, -⟩
    · exact ⟨t, by rw [hbs, encode_cons, List.append_assoc], rfl⟩
    · contradiction

/-! ## Mending -/

/-- What is there when the text that is read from bytes is written again: every ill-formed piece
has become the form of the replacement. -/
def mend (bs : Bytes) : Bytes :=
  encode (decode bs)

@[simp] lemma mend_nil : mend [] = [] := rfl

lemma mend_append {t : Bytes} (ht : Fresh t) (s : Bytes) : mend (s ++ t) = mend s ++ mend t := by
  rw [mend, decode_append ht, encode_append, mend, mend]

lemma mend_encode_append (cs : List Char) (t : Bytes) :
    mend (encode cs ++ t) = encode cs ++ mend t := by
  rw [mend, decode_encode_append, encode_append, mend]

/-- Mending changes nothing but ill-formed bytes. -/
theorem mend_eq_self_iff {bs : Bytes} : mend bs = bs ↔ WellFormed bs := by
  constructor
  · intro h
    exact ⟨decode bs, h.symm⟩
  · rintro ⟨cs, rfl⟩
    rw [mend, decode_encode]

/-- Mending adds no lines and takes none away. -/
theorem count_mend (bs : Bytes) : (mend bs).count 0x0A = bs.count 0x0A := by
  induction bs using pieces_induction with
  | nil => rfl
  | piece p c t hp ih =>
    have hpiece : (String.utf8EncodeChar c).count 0x0A = p.count 0x0A := by
      rcases hp.piece with rfl | ⟨rfl, -, -, hascii⟩
      · rfl
      · have hnot : 0x0A ∉ p := fun hmem => hascii 0x0A hmem (by decide)
        rw [List.count_eq_zero.mpr hnot]
        decide
    rw [mend, hp.decode_self, encode_cons, ← mend, List.count_append, List.count_append, hpiece, ih]

/-- Mending makes no bytes fewer, since an ill-formed piece is not longer than a replacement. -/
theorem length_le_length_mend (bs : Bytes) : bs.length ≤ (mend bs).length := by
  induction bs using pieces_induction with
  | nil => exact Nat.le_refl 0
  | piece p c t hp ih =>
    have hpiece : p.length ≤ (String.utf8EncodeChar c).length := by
      rcases hp.piece with rfl | ⟨rfl, -, hlength, -⟩
      · exact Nat.le_refl _
      · exact hlength
    rw [mend, hp.decode_self, encode_cons, ← mend, List.length_append, List.length_append]
    exact Nat.add_le_add hpiece ih

/-! ## Occurrences -/

section Occurrences

variable {cs : List Char} {bs : Bytes}

/-- Where a text stands in bytes, it stands in the mended bytes. -/
theorem mend_append_encode (hcs : cs ≠ []) (s t : Bytes) :
    mend (s ++ (encode cs ++ t)) = mend s ++ (encode cs ++ mend t) := by
  rw [mend_append (fresh_encode_append hcs t), mend_encode_append]

lemma decode_append_encode (hcs : cs ≠ []) (s t : Bytes) :
    decode (s ++ (encode cs ++ t)) = decode s ++ (cs ++ decode t) := by
  rw [decode_append (fresh_encode_append hcs t), decode_encode_append]

lemma exists_of_decode_eq_append_append {ds es : List Char} (hclean : replacement ∉ cs)
    (h : decode bs = ds ++ (cs ++ es)) :
    ∃ s t, bs = s ++ (encode cs ++ t) ∧ decode s = ds ∧ decode t = es := by
  obtain ⟨s, r, rfl, hs, hr⟩ := exists_of_decode_eq_append h
  obtain ⟨t, rfl, ht⟩ := exists_of_decode_eq hr hclean
  exact ⟨s, t, rfl, hs, ht⟩

/-- Where a text without replacements stands in the mended bytes, it stands in the bytes. -/
theorem exists_of_mend_eq {x y : Bytes} (hcs : cs ≠ []) (hclean : replacement ∉ cs)
    (h : mend bs = x ++ (encode cs ++ y)) :
    ∃ s t, bs = s ++ (encode cs ++ t) ∧ mend s = x ∧ mend t = y := by
  obtain ⟨ds, es, hdecode, rfl, hes⟩ := exists_of_encode_eq h (fresh_encode_append hcs y)
  have hread : es = cs ++ decode y := by
    rw [← decode_encode es, hes, decode_encode_append]
  rw [hread] at hdecode
  obtain ⟨s, t, rfl, rfl, ht⟩ := exists_of_decode_eq_append_append hclean hdecode
  refine ⟨s, t, rfl, rfl, ?_⟩
  rw [hread, encode_append] at hes
  rw [mend, ht]
  exact List.append_cancel_left hes

/-- A text without replacements is read from bytes where its form stands in them. -/
theorem encode_infix_iff (hcs : cs ≠ []) (hclean : replacement ∉ cs) :
    encode cs <:+: bs ↔ cs <:+: decode bs := by
  constructor
  · rintro ⟨s, t, rfl⟩
    rw [List.append_assoc, decode_append_encode hcs]
    exact ⟨decode s, decode t, List.append_assoc _ _ _⟩
  · rintro ⟨ds, es, h⟩
    rw [List.append_assoc] at h
    obtain ⟨s, t, rfl, -⟩ := exists_of_decode_eq_append_append hclean h.symm
    exact ⟨s, t, List.append_assoc _ _ _⟩

lemma eq_nil_of_decode_eq_nil (h : decode bs = []) : bs = [] := by
  rcases bs with _ | ⟨a, bs⟩
  · rfl
  · obtain ⟨c, p, t, hbs, hp⟩ := exists_reads a bs
    rw [hbs, hp.decode_self] at h
    exact absurd h (List.cons_ne_nil _ _)

/-- The reading ends with a text without replacements if the bytes end with its form. -/
theorem encode_suffix_iff (hcs : cs ≠ []) (hclean : replacement ∉ cs) :
    encode cs <:+ bs ↔ cs <:+ decode bs := by
  constructor
  · rintro ⟨s, rfl⟩
    have hread := decode_append_encode hcs s []
    rw [List.append_nil, decode_nil, List.append_nil] at hread
    exact ⟨decode s, hread.symm⟩
  · rintro ⟨ds, h⟩
    have hread : decode bs = ds ++ (cs ++ []) := by rw [List.append_nil, h]
    obtain ⟨s, t, rfl, -, ht⟩ := exists_of_decode_eq_append_append hclean hread
    exact ⟨s, by rw [eq_nil_of_decode_eq_nil ht, List.append_nil]⟩

end Occurrences

end BuildLens.Text.Utf8
