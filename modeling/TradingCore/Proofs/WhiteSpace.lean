import TradingCore.Proofs.Strips

/-! White space off the ends of a string, as a view and as a copy. The view leaves
out only blanks in front, cannot be made of an empty string, and has no end if
nothing is left behind several blanks. -/

namespace TradingCore.Proofs.WhiteSpace
open Utilities Utilities.StringUtilities Trimming

def space (ch : Char) : Bool := [' ', '\t', '\n', '\x0b', '\x0c', '\r'].contains ch

/-- The characters that may be asked for: the ASCII ones and the one that is EOF. -/
def inDomain (ch : Char) : Bool := Int.bmod ch.toNat 256 = -1 ∨ 0 ≤ Int.bmod ch.toNat 256

theorem isspace_eq (ch : Char) : isspace ch = if inDomain ch then some (space ch) else none := by
  unfold isspace
  dsimp only
  by_cases asked : inDomain ch
  · rw [if_pos asked, if_pos (of_decide_eq_true asked), space]
  · rw [if_neg asked, if_neg (of_decide_eq_false (Bool.eq_false_iff.mpr asked))]

theorem space_inDomain {ch : Char} (white : space ch = true) : inDomain ch = true := by
  have listed : ch ∈ [' ', '\t', '\n', '\x0b', '\x0c', '\r'] := List.contains_iff_mem.mp white
  have all : [' ', '\t', '\n', '\x0b', '\x0c', '\r'].all inDomain := by decide
  exact List.all_eq_true.mp all ch listed

theorem isspace_space {ch : Char} (white : space ch = true) : isspace ch = some true := by
  rw [isspace_eq, if_pos (space_inDomain white), white]

theorem space_of_isBlank {ch : Char} (blank : isBlank ch = true) : space ch = true := by
  have same : ch = ' ' := eq_of_beq blank
  rw [same]
  rfl

theorem findIfNotSpace_eq (str : StdString) :
    findIfNotSpace str =
      if (str.find? (fun ch => !space ch)).all inDomain then some (str.takeWhile space).length else none := by
  induction str with
  | nil => rfl
  | cons ch rest ih =>
    rw [findIfNotSpace]
    cases white : space ch with
    | true =>
      rw [isspace_space white, List.find?_cons_of_neg (by simp [white]), List.takeWhile_cons_of_pos white, ih]
      simp only [Option.bind_eq_bind, Option.bind_some, if_true]
      split
      next => rfl
      next => rfl
    | false =>
      have found : (ch :: rest).find? (fun ch => !space ch) = some ch := List.find?_cons_of_pos (by simp [white])
      rw [isspace_eq, white, found, List.takeWhile_cons_of_neg (by simp [white]), Option.all_some]
      split
      next => rfl
      next => rfl

/-- The loop does not ask for the first character, and for the last one that is left
if it stops there. -/
theorem skipSpaces_eq (str : StdString) {last : Nat} (within : last < str.length) :
    skipSpaces str last =
      if ((str.take (last + 1)).rdropWhile space).length ≤ 1 then some 0
      else if ((str.take (last + 1)).rdropWhile space).getLast?.all inDomain then
        some (((str.take (last + 1)).rdropWhile space).length - 1)
      else none := by
  induction last with
  | zero =>
    have short : ((str.take 1).rdropWhile space).length ≤ 1 :=
      Nat.le_trans (List.rdropWhile_prefix space _).length_le (List.length_take_le 1 str)
    rw [skipSpaces, if_pos short]
  | succ last ih =>
    rw [skipSpaces, List.getElem?_eq_getElem within, rdropWhile_take_succ space within]
    simp only [Option.bind_eq_bind, Option.bind_some]
    cases white : space str[last + 1] with
    | true =>
      rw [isspace_space white, Option.bind_some, if_pos rfl, if_pos rfl]
      exact ih (Nat.lt_of_succ_lt within)
    | false =>
      have ends : (str.take (last + 1 + 1)).getLast? = some str[last + 1] := by
        rw [List.take_succ_eq_append_getElem within, List.getLast?_concat]
      have length : (str.take (last + 1 + 1)).length = last + 1 + 1 := List.length_take_of_le within
      have long : ¬ last + 1 + 1 ≤ 1 := by omega
      rw [isspace_eq, white, if_neg Bool.false_ne_true, length, if_neg long, ends, Option.all_some]
      split
      next => rfl
      next => rfl

def endsInDomain (str : StdString) : Bool :=
  (trimmed space str).head?.all inDomain && (trimmed space str).getLast?.all inDomain

theorem length_takeWhile_reverse (str : StdString) :
    str.length - (str.reverse.takeWhile space).length = (str.rdropWhile space).length := by
  have whole := congrArg List.length (@List.takeWhile_append_dropWhile _ space str.reverse)
  rw [List.length_append, List.length_reverse] at whole
  rw [List.rdropWhile, List.length_reverse]
  omega

theorem trimEx_eq (str : StdString) :
    trimEx str = if endsInDomain str then some (trimmed space str) else none := by
  obtain ⟨head, last⟩ := find?_eq_head? space str
  rw [trimEx, findIfNotSpace_eq, findIfNotSpace_eq, head, last, endsInDomain]
  cases (trimmed space str).head?.all inDomain with
  | false => rfl
  | true =>
    cases (trimmed space str).getLast?.all inDomain with
    | false => rfl
    | true =>
      simp only [if_true, Option.bind_eq_bind, Option.bind_some, length_takeWhile_reverse, Bool.and_self]
      apply congrArg some
      by_cases left : trimmed space str = []
      · have nothing : str.rdropWhile space = [] := by
          rw [List.rdropWhile_eq_nil_iff]
          exact (trimmed_eq_nil_iff space str).mp left
        rw [nothing, left, List.length_nil, if_neg (Nat.not_lt_zero _)]
      · have some := List.length_pos_of_ne_nil left
        have end_length : (str.rdropWhile space).length =
            (str.takeWhile space).length + (trimmed space str).length := by
          rw [rdropWhile_eq space left, List.length_append]
        rw [end_length, if_pos (by omega), Nat.add_sub_cancel_left, StdString.substr, ← dropWhile_eq_drop, trimmed,
          take_rdropWhile]

/-- The blanks in front are some of the white space in front. -/
theorem takeWhile_space (str : StdString) :
    str.takeWhile space = str.takeWhile isBlank ++ (str.dropWhile isBlank).takeWhile space := by
  have blanks : ∀ ch ∈ str.takeWhile isBlank, space ch := fun ch member =>
    space_of_isBlank (List.mem_takeWhile_imp member)
  calc str.takeWhile space = (str.takeWhile isBlank ++ str.dropWhile isBlank).takeWhile space := by
        rw [List.takeWhile_append_dropWhile]
    _ = str.takeWhile isBlank ++ (str.dropWhile isBlank).takeWhile space := List.takeWhile_append_of_pos blanks

theorem length_blanks_le (str : StdString) : (str.takeWhile isBlank).length ≤ (str.takeWhile space).length := by
  rw [takeWhile_space, List.length_append]
  exact Nat.le_add_right _ _

/-- All the white space in front is blanks if the first other character is none. -/
theorem only_blanks_iff (str : StdString) :
    (str.takeWhile space).length = (str.takeWhile isBlank).length ↔
      ∀ first ∈ str.find? (fun ch => !isBlank ch), space first = false := by
  rw [takeWhile_space, List.length_append, Nat.add_eq_left, List.length_eq_zero_iff, List.find?_not_eq_head?_dropWhile]
  cases str.dropWhile isBlank with
  | nil => simp
  | cons first rest => simp [List.takeWhile_cons]

theorem trim_eq {str : StdString} (sized : str.length < sizeLimit) (nonempty : str ≠ []) :
    trim str =
      if (str.rdropWhile space).length ≤ 1 then
        some ⟨(str.takeWhile isBlank).length, sizeAdd (sizeSub 0 (str.takeWhile isBlank).length) 1⟩
      else if (str.rdropWhile space).getLast?.all inDomain then
        some ⟨(str.takeWhile isBlank).length,
          sizeAdd (sizeSub ((str.rdropWhile space).length - 1) (str.takeWhile isBlank).length) 1⟩
      else none := by
  have some_length := List.length_pos_of_ne_nil nonempty
  have until_last : sizeSub str.length 1 = str.length - 1 := Trims.sizeSub_of_le some_length sized
  have back := skipSpaces_eq str (Nat.sub_lt some_length Nat.one_pos)
  rw [Nat.sub_add_cancel some_length, List.take_length] at back
  rw [trim, Trims.skipFront_eq, until_last, back, List.drop_zero, Nat.zero_add]
  simp only [Option.bind_eq_bind, Option.bind_some]
  split
  next => rfl
  next =>
    split
    next => rfl
    next => rfl

theorem trim_left {str : StdString} (sized : str.length < sizeLimit) (left : trimmed space str ≠ []) :
    (str.takeWhile isBlank).length < (str.rdropWhile space).length ∧
    trim str =
      if (str.rdropWhile space).length ≤ 1 ∨ (trimmed space str).getLast?.all inDomain then
        some ⟨(str.takeWhile isBlank).length, (str.rdropWhile space).length - (str.takeWhile isBlank).length⟩
      else none := by
  have nonempty : str ≠ [] := by
    rintro rfl
    exact left rfl
  have some_left := List.length_pos_of_ne_nil left
  have fewer := length_blanks_le str
  have shorter := (List.rdropWhile_prefix space str).length_le
  have whole : (str.rdropWhile space).length = (str.takeWhile space).length + (trimmed space str).length := by
    rw [rdropWhile_eq space left, List.length_append]
  have last : (str.rdropWhile space).getLast? = (trimmed space str).getLast? := by
    rw [rdropWhile_eq space left, List.getLast?_append_of_ne_nil _ left]
  have length : sizeAdd (sizeSub ((str.rdropWhile space).length - 1) (str.takeWhile isBlank).length) 1 =
      (str.rdropWhile space).length - (str.takeWhile isBlank).length := by
    rw [Trims.sizeSub_of_le (by omega) (by omega), Trims.sizeAdd_of_lt (by omega)]
    omega
  refine ⟨by omega, ?_⟩
  rw [trim_eq sized nonempty, last, length]
  by_cases single : (str.rdropWhile space).length ≤ 1
  · have first : (str.rdropWhile space).length - 1 = 0 := by omega
    rw [first] at length
    rw [if_pos single, if_pos (Or.inl single), length]
  · rw [if_neg single]
    exact if_congr (or_iff_right single).symm rfl rfl

/-- The length of a view that ends at the first character, with something in front. -/
theorem length_around {blanks : Nat} (sized : blanks < sizeLimit) :
    sizeAdd (sizeSub 0 blanks) 1 = if blanks = 0 then 1 else if blanks = 1 then 0 else sizeLimit + 1 - blanks := by
  have some : 1 < sizeLimit := by decide
  unfold sizeAdd sizeSub
  generalize sizeLimit = limit at sized some ⊢
  rw [Nat.zero_add]
  split
  next none =>
    rw [none, Nat.sub_zero, Nat.mod_self, Nat.mod_eq_of_lt some]
  next =>
    rw [Nat.mod_eq_of_lt (by omega : limit - blanks < limit)]
    split
    next one =>
      rw [one, Nat.sub_add_cancel (Nat.le_of_lt some), Nat.mod_self]
    next more =>
      rw [Nat.mod_eq_of_lt (by omega)]
      omega

/-- With nothing left, the view is empty behind one blank, holds the first character
if that is no blank, and has no end in the string otherwise. -/
theorem trim_nothing {str : StdString} (sized : str.length < sizeLimit) (nonempty : str ≠ [])
    (nothing : trimmed space str = []) :
    (∃ view, trim str = some view ∧ view.pos + view.length ≤ str.length ∧ view.text str = []) ↔
      (str.takeWhile isBlank).length = 1 := by
  have none_left : str.rdropWhile space = [] := by
    rw [List.rdropWhile_eq_nil_iff]
    exact (trimmed_eq_nil_iff space str).mp nothing
  have within := (List.takeWhile_prefix isBlank (l := str)).length_le
  have some_length := List.length_pos_of_ne_nil nonempty
  have trims := trim_eq sized nonempty
  rw [none_left, List.length_nil, if_pos (Nat.zero_le 1)] at trims
  have fits : (str.takeWhile isBlank).length < sizeLimit := Nat.lt_of_le_of_lt within sized
  rw [length_around fits] at trims
  generalize (str.takeWhile isBlank).length = blanks at trims ⊢
  rw [trims]
  simp only [Option.some_inj, exists_eq_left', View.text, StdString.substr]
  constructor
  · rintro ⟨inside, empty⟩
    split at inside
    next none =>
      rw [if_pos none, none, List.drop_zero, List.take_eq_nil_iff] at empty
      exact absurd (empty.resolve_left Nat.one_ne_zero) nonempty
    next =>
      split at inside
      next one => exact one
      next => omega
  · rintro rfl
    exact ⟨some_length, rfl⟩

/-- Blanks and nothing else in front of what is left, whose ends may be asked for,
or just one blank in front if nothing is left. -/
def Trimmable (str : StdString) : Prop :=
  (∃ first last, str.find? (fun ch => !isBlank ch) = some first ∧ str.reverse.find? (fun ch => !space ch) = some last ∧
    space first = false ∧ inDomain first ∧ inDomain last) ∨
  (str.takeWhile isBlank).length = 1 ∧ ∀ ch ∈ str, space ch

theorem trim_nil : trim [] = none := by
  have around : sizeSub 0 1 = (sizeSub 0 1 - 1) + 1 := by
    rw [sizeSub, sizeLimit]
    decide
  rw [trim, Trims.skipFront_eq, List.length_nil, around, skipSpaces, List.getElem?_nil]
  rfl

theorem trims_nothing {str : StdString} (sized : str.length < sizeLimit) (nothing : trimmed space str = []) :
    (∃ view, trim str = some view ∧ view.pos + view.length ≤ str.length ∧ view.text str = []) ↔ Trimmable str := by
  have absent : str.reverse.find? (fun ch => !space ch) = none := by
    rw [(find?_eq_head? space str).2, nothing, List.getLast?_nil]
  rw [Trimmable, absent]
  simp only [reduceCtorEq, false_and, and_false, exists_false, false_or]
  rw [and_iff_left ((trimmed_eq_nil_iff space str).mp nothing)]
  by_cases nonempty : str = []
  · subst nonempty
    simp [trim_nil]
  · exact trim_nothing sized nonempty nothing

/-- Behind the blanks is the first character left, if all the white space in front is
blanks. -/
theorem find?_same {str : StdString} (only : (str.takeWhile space).length = (str.takeWhile isBlank).length) :
    str.find? (fun ch => !isBlank ch) = (trimmed space str).head? := by
  rw [List.find?_not_eq_head?_dropWhile, dropWhile_eq_drop, ← only, ← dropWhile_eq_drop,
    ← List.find?_not_eq_head?_dropWhile]
  exact (find?_eq_head? space str).1

theorem text_iff {str : StdString} (left : trimmed space str ≠ []) :
    View.text str ⟨(str.takeWhile isBlank).length, (str.rdropWhile space).length - (str.takeWhile isBlank).length⟩ =
      trimmed space str ↔ (str.takeWhile space).length = (str.takeWhile isBlank).length := by
  have text : View.text str
      ⟨(str.takeWhile isBlank).length, (str.rdropWhile space).length - (str.takeWhile isBlank).length⟩ =
        (str.takeWhile space ++ trimmed space str).drop (str.takeWhile isBlank).length := by
    rw [View.text, StdString.substr, ← List.drop_take, take_rdropWhile, rdropWhile_eq space left]
  have fewer := length_blanks_le str
  rw [text]
  constructor
  · intro same
    have lengths := congrArg List.length same
    rw [List.length_drop, List.length_append] at lengths
    have some_left := List.length_pos_of_ne_nil left
    omega
  · intro only
    rw [← only, List.drop_left]

theorem trims_left {str : StdString} (sized : str.length < sizeLimit) (left : trimmed space str ≠ []) :
    ((∃ view, trim str = some view ∧ view.pos + view.length ≤ str.length ∧ view.text str = trimmed space str) ∧
      endsInDomain str) ↔ Trimmable str := by
  obtain ⟨behind, trims⟩ := trim_left sized left
  have solid : ¬ ∀ ch ∈ str, space ch := mt (trimmed_eq_nil_iff space str).mpr left
  have last_left := (find?_eq_head? space str).2
  have shorter := (List.rdropWhile_prefix space str).length_le
  rw [Trimmable, or_iff_left fun spaces => solid spaces.2, last_left, endsInDomain, Bool.and_eq_true]
  constructor
  · rintro ⟨⟨view, trimmed_to, _, text⟩, ends⟩
    rw [trims, if_pos (Or.inr ends.2), Option.some_inj] at trimmed_to
    rw [← trimmed_to, text_iff left] at text
    have first_left := find?_same text
    obtain ⟨first, rest, begins⟩ := List.exists_cons_of_ne_nil left
    have head : (trimmed space str).head? = some first := by rw [begins, List.head?_cons]
    have last := List.getLast?_eq_some_getLast left
    rw [head, last, Option.all_some, Option.all_some] at ends
    exact ⟨first, _, first_left.trans head, last, head_trimmed space begins, ends.1, ends.2⟩
  · rintro ⟨first, last, found, ends, first_solid, first_asked, last_asked⟩
    have only : (str.takeWhile space).length = (str.takeWhile isBlank).length := by
      rw [only_blanks_iff, found]
      rintro _ ⟨rfl⟩
      exact first_solid
    rw [find?_same only] at found
    rw [ends, Option.all_some] at trims
    rw [found, ends, Option.all_some, Option.all_some]
    refine ⟨⟨_, trims.trans (if_pos (Or.inr last_asked)), ?_, (text_iff left).mpr only⟩, first_asked, last_asked⟩
    dsimp only
    omega

/-- The view and the copy show the string without white space at its ends, and
nothing outside it is read, exactly if the string is trimmable. -/
theorem white_space_trims_iff (str : StdString) (sized : str.length < sizeLimit) :
    ((∃ view, trim str = some view ∧ view.pos + view.length ≤ str.length ∧ view.text str = trimmed space str) ∧
      trimEx str = some (trimmed space str)) ↔ Trimmable str := by
  have copied : trimEx str = some (trimmed space str) ↔ endsInDomain str := by
    rw [trimEx_eq]
    cases endsInDomain str with
    | false => simp
    | true => simp
  rw [copied]
  by_cases left : trimmed space str = []
  · have ends : endsInDomain str := by simp [endsInDomain, left]
    rw [and_iff_left ends, left]
    exact trims_nothing sized left
  · exact trims_left sized left

/-- A tabulator is white space at the end only, and in front it stays in the view. -/
theorem white_space_trims_word :
    ((∃ view, trim [' ', 'a', '\t'] = some view ∧ view.pos + view.length ≤ 3 ∧
      view.text [' ', 'a', '\t'] = ['a']) ∧ trimEx [' ', 'a', '\t'] = some ['a']) ∧
    trim ['\t', 'a'] = some ⟨0, 2⟩ := by
  refine ⟨(white_space_trims_iff [' ', 'a', '\t'] (by decide)).mpr ?_, by decide +kernel⟩
  exact Or.inl ⟨'a', 'a', by decide⟩

end TradingCore.Proofs.WhiteSpace
