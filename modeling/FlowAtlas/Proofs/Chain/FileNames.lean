import FlowAtlas.Chain.FileName
import FlowAtlas.Proofs.Text.Parts
/-! Names of exported files. The dash behind the position is the first one in the name, so the position can be read
off whatever the chain is called; what the name of the chain leaves is plain and is no run of underscores. -/
namespace FlowAtlas

namespace Text

section

variable {p : Char → Bool}

theorem droppedHead {s : List Char} {c : Char} (head : (s.dropWhile p).head? = some c) : p c = false := by
  have stopped := List.head?_dropWhile_not p s
  rwa [head] at stopped

theorem trimmedHead {s : List Char} {c : Char} (head : (trimBoth p s).head? = some c) : p c = false := by
  have kept : trimBoth p s <+: s.dropWhile p := by
    rw [← List.reverse_suffix, trimBoth, List.reverse_reverse]
    exact List.dropWhile_suffix p
  obtain ⟨after, split⟩ := kept
  apply droppedHead (s := s)
  rw [← split, List.head?_append, head, Option.some_or]

theorem trimmedLast {s : List Char} {c : Char} (last : (trimBoth p s).getLast? = some c) : p c = false := by
  rw [trimBoth, List.getLast?_reverse] at last
  exact droppedHead last

theorem trimmedMem {s : List Char} {c : Char} (mem : c ∈ trimBoth p s) : c ∈ s := by
  rw [trimBoth, List.mem_reverse] at mem
  have inside := (List.dropWhile_sublist p).subset mem
  exact (List.dropWhile_sublist p).subset (List.mem_reverse.mp inside)

end

end Text

namespace FileName

theorem squeezedPlain (inRun : Bool) {s : List Char} {c : Char} (mem : c ∈ squeeze inRun s) : isPlain c = true := by
  fun_induction squeeze inRun s with
  | case1 => cases mem
  | case2 inRun d rest plain ih =>
    rcases List.mem_cons.mp mem with rfl | later
    · exact plain
    · exact ih later
  | case3 d rest _ ih => exact ih mem
  | case4 inRun d rest _ _ ih =>
    rcases List.mem_cons.mp mem with rfl | later
    · decide
    · exact ih later

structure Slugged (slug : List Char) : Prop where
  filled : slug ≠ []
  plain : ∀ c ∈ slug, isPlain c = true
  head : slug.head? ≠ some '_'
  last : slug.getLast? ≠ some '_'

theorem slugged (name : List Char) : Slugged (slug name) := by
  unfold slug
  split
  · constructor
    case plain => exact List.all_eq_true.mp (by decide)
    all_goals decide
  · rename_i filled
    constructor
    case filled => exact filled
    case plain => exact fun c mem => squeezedPlain false (Text.trimmedMem mem)
    case head =>
      intro bar
      cases Text.trimmedHead bar
    case last =>
      intro bar
      cases Text.trimmedLast bar

theorem paddedDigits {n : Nat} {c : Char} (mem : c ∈ padLeft 3 (toString n).toList) : c.isDigit = true := by
  rcases List.mem_append.mp mem with zero | digit
  · obtain rfl := List.eq_of_mem_replicate zero
    rfl
  · exact Text.digitsOnly n c digit

theorem paddedValue (n : Nat) : Nat.ofDigitChars 10 (padLeft 3 (toString n).toList) 0 = n := by
  rw [padLeft, Nat.ofDigitChars_append, Nat.ofDigitChars_replicate_zero, Nat.mul_zero, Nat.toString_eq_repr,
    Nat.toList_repr]
  exact Nat.ofDigitChars_toDigits (by decide) (by decide)

end FileName

open FileName

theorem fileNameChars (position : Nat) (name : String) : (chainFileName position name).toList =
    padLeft 3 (toString position).toList ++ '-' :: slug name.toList ++ ".mmd".toList := by
  have positive : ¬ (position : Int) < 0 := by omega
  rw [chainFileName, String.toList_ofList, paddedPosition, if_neg positive, Int.natAbs_natCast]

theorem positionBeforeDash (position : Nat) (name : String) :
    (chainFileName position name).toList.takeWhile (· ≠ '-') = padLeft 3 (toString position).toList := by
  have digits : ∀ c ∈ padLeft 3 (toString position).toList, decide (c ≠ '-') = true := by
    intro c mem
    apply decide_eq_true
    rintro rfl
    cases paddedDigits mem
  rw [fileNameChars, List.append_assoc, List.takeWhile_append_of_pos digits]
  simp

theorem positionOfName {p q : Nat} {x y : String} (same : chainFileName p x = chainFileName q y) : p = q := by
  have digits := congrArg (fun s : String => Nat.ofDigitChars 10 (s.toList.takeWhile (· ≠ '-')) 0) same
  simpa only [positionBeforeDash, paddedValue] using digits

theorem fileNameDown (position : Nat) (name : String) : chainFileName position name ≠ ".." := by
  intro same
  have dash : '-' ∈ (chainFileName position name).toList := by
    rw [fileNameChars]
    simp
  rw [same] at dash
  exact absurd dash (by decide)

theorem fileNamePlain (position : Nat) (name : String) : ∀ c ∈ (chainFileName position name).toList, isPlain c = true := by
  intro c mem
  rw [fileNameChars] at mem
  simp only [List.mem_append, List.mem_cons] at mem
  rcases mem with (digit | rfl | inside) | ending
  · simp [isPlain, Char.isAlphanum, paddedDigits digit]
  · decide
  · exact (slugged name.toList).plain c inside
  · exact List.all_eq_true.mp (show ".mmd".toList.all isPlain = true by decide) c ending

end FlowAtlas
