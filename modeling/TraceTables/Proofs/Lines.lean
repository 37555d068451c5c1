import TraceTables.Recording.Lines

/-!
# Cutting octets into lines

Octets are cut one at a time, from the left. Lines that hold no line feed and are written with
one behind each are cut where they were joined (`cut_joined`). Octets that end in a line feed are
cut into as many lines as they hold line feeds, and what follows them is cut as it is by itself
(`cut_append`).
-/

namespace TraceTables.Lines

/-- The octets of lines, each with a line feed behind it. -/
def joined (lines : List ByteArray) : List UInt8 :=
  lines.flatMap fun line => line.data.toList ++ [lineFeed]

@[simp] theorem joined_nil : joined [] = [] := rfl

@[simp] theorem joined_cons (line : ByteArray) (more : List ByteArray) :
    joined (line :: more) = line.data.toList ++ lineFeed :: joined more := by
  simp [joined]

/-- There are as many line feeds as lines. -/
theorem count_joined {lines : List ByteArray} (h : ∀ line ∈ lines, lineFeed ∉ line.data.toList) :
    (joined lines).count lineFeed = lines.length := by
  induction lines with
  | nil => rfl
  | cons line more ih =>
    obtain ⟨first, rest⟩ := List.forall_mem_cons.1 h
    rw [joined_cons, List.count_append, List.count_cons_self, ih rest, List.count_eq_zero.2 first,
      List.length_cons, Nat.zero_add]

/-- Octets without a line feed go on the line that has not ended. -/
theorem foldl_push {octets : List UInt8} (h : lineFeed ∉ octets) (cut : Cut) :
    octets.foldl .push cut = { cut with current := cut.current ++ octets.toByteArray } := by
  induction octets generalizing cut with
  | nil => simp
  | cons octet more ih =>
    rw [List.mem_cons, not_or] at h
    obtain ⟨other, rest⟩ := h
    rw [List.foldl_cons, ih rest, Cut.push, if_neg (Ne.symm other)]
    refine congrArg (Cut.mk cut.ended) (ByteArray.ext (Array.toList_inj.1 ?_))
    simp

/-- A line that does not end with a carriage return is kept as it is. -/
theorem dropReturn_eq_self {line : ByteArray} (h : carriageReturn ∉ line.data.toList) :
    dropReturn line = line := by
  rw [dropReturn, if_neg]
  intro last
  exact h (Array.mem_toList_iff.2 (Array.mem_of_back? last))

theorem foldl_push_joined {lines : List ByteArray}
    (h : ∀ line ∈ lines, lineFeed ∉ line.data.toList) (ended : Array ByteArray) :
    (joined lines).foldl Cut.push ⟨ended, .empty⟩ =
      ⟨ended ++ (lines.map dropReturn).toArray, .empty⟩ := by
  induction lines generalizing ended with
  | nil => simp
  | cons line more ih =>
    obtain ⟨first, rest⟩ := List.forall_mem_cons.1 h
    have whole : ByteArray.empty ++ line.data.toList.toByteArray = line := by
      apply ByteArray.ext
      simp
    rw [joined_cons, List.foldl_append, foldl_push first, List.foldl_cons, Cut.push, if_pos rfl,
      ih rest, whole]
    simp

/-- Lines without line feeds are cut where they were joined. -/
theorem cut_joined {lines : List ByteArray} (h : ∀ line ∈ lines, lineFeed ∉ line.data.toList)
    {bytes : ByteArray} (octets : bytes.data.toList = joined lines) :
    cut bytes = ⟨(lines.map dropReturn).toArray, .empty⟩ := by
  rw [cut, ← Array.foldl_toList, octets, foldl_push_joined h]
  simp

/-- The octets before, between and behind the line feeds. -/
def split (bytes : ByteArray) : List ByteArray :=
  (bytes.data.toList.splitOn lineFeed).map List.toByteArray

/-- Whether octets are those of lines with line feeds behind them, and of a last line that has
not ended. -/
structure IsCut (bytes : ByteArray) (ended : List ByteArray) (last : ByteArray) : Prop where
  octets : bytes.data.toList = joined ended ++ last.data.toList
  ended : ∀ line ∈ ended, lineFeed ∉ line.data.toList
  last : lineFeed ∉ last.data.toList

theorem exists_splitOn (octets : List UInt8) :
    ∃ ended last, octets.splitOn lineFeed = ended ++ [last] ∧
      octets = ended.flatMap (· ++ [lineFeed]) ++ last ∧
      (∀ line ∈ ended, lineFeed ∉ line) ∧ lineFeed ∉ last := by
  induction octets with
  | nil => exact ⟨[], [], rfl, rfl, by simp, by simp⟩
  | cons octet more ih =>
    obtain ⟨ended, last, pieces, cut, whole, rest⟩ := ih
    rw [List.splitOn_cons_eq_if_modifyHead, pieces]
    by_cases feed : octet = lineFeed
    · refine ⟨[] :: ended, last, by simp [feed], by simp [feed, cut], ?_, rest⟩
      exact List.forall_mem_cons.2 ⟨List.not_mem_nil, whole⟩
    have inside {line : List UInt8} (h : lineFeed ∉ line) : lineFeed ∉ octet :: line := by
      rw [List.mem_cons, not_or]
      exact ⟨Ne.symm feed, h⟩
    cases ended with
    | nil => exact ⟨[], octet :: last, by simp [feed], by simp [cut], by simp, inside rest⟩
    | cons line more =>
      refine ⟨(octet :: line) :: more, last, by simp [feed], by simp [cut], ?_, rest⟩
      obtain ⟨first, others⟩ := List.forall_mem_cons.1 whole
      exact List.forall_mem_cons.2 ⟨inside first, others⟩

/-- Where octets are split, they are cut. -/
theorem exists_isCut (bytes : ByteArray) :
    ∃ ended last, split bytes = ended ++ [last] ∧ IsCut bytes ended last := by
  obtain ⟨ended, last, pieces, octets, noFeed, noFeed'⟩ := exists_splitOn bytes.data.toList
  refine ⟨ended.map List.toByteArray, last.toByteArray, ?_, ?_, ?_, ?_⟩
  · rw [split, pieces, List.map_append, List.map_singleton]
  · rw [octets, joined, List.flatMap_map]
    simp
  · simpa using noFeed
  · simpa using noFeed'

namespace IsCut

variable {bytes : ByteArray} {ended : List ByteArray} {last : ByteArray}

theorem cut_eq (h : IsCut bytes ended last) :
    cut bytes = ⟨(ended.map dropReturn).toArray, last⟩ := by
  have whole : ByteArray.empty ++ last.data.toList.toByteArray = last := by
    apply ByteArray.ext
    simp
  rw [cut, ← Array.foldl_toList, h.octets, List.foldl_append, foldl_push_joined h.ended,
    foldl_push h.last, whole]
  simp

/-- The lines before one of them stand before its octets. -/
theorem octets_of_split (h : IsCut bytes ended last) {before more : List ByteArray}
    {line : ByteArray} (pieces : ended ++ [last] = before ++ line :: more) :
    (∃ behind, bytes.data.toList = joined before ++ line.data.toList ++ behind) ∧
      ∀ one ∈ before, lineFeed ∉ one.data.toList := by
  rcases List.eq_nil_or_concat more with rfl | ⟨more, one, rfl⟩
  · obtain ⟨rfl, same⟩ := List.append_inj' pieces rfl
    obtain rfl := List.singleton_inj.1 same
    exact ⟨⟨[], by rw [h.octets, List.append_nil]⟩, h.ended⟩
  · have cut : ended ++ [last] = (before ++ line :: more) ++ [one] := by
      rw [pieces]
      simp
    obtain ⟨rfl, -⟩ := List.append_inj' cut rfl
    refine ⟨⟨lineFeed :: joined more ++ last.data.toList, ?_⟩, fun one among =>
      h.ended one (List.mem_append_left _ among)⟩
    rw [h.octets, joined, joined, List.flatMap_append, List.flatMap_cons]
    simp [joined]

end IsCut

/-- Whether the last line has ended. -/
def Whole (bytes : ByteArray) : Prop :=
  bytes = .empty ∨ bytes.data.back? = some lineFeed

/-- Lines that have ended before stay where they are. -/
theorem foldl_push_ended (octets : List UInt8) (before ended : Array ByteArray)
    (current : ByteArray) :
    octets.foldl Cut.push ⟨before ++ ended, current⟩ =
      ⟨before ++ (octets.foldl Cut.push ⟨ended, current⟩).ended,
        (octets.foldl Cut.push ⟨ended, current⟩).current⟩ := by
  induction octets generalizing ended current with
  | nil => rfl
  | cons octet more ih =>
    rw [List.foldl_cons, List.foldl_cons]
    by_cases feed : octet = lineFeed
    · rw [Cut.push, Cut.push, if_pos feed, if_pos feed, ← ih]
      simp
    · rw [Cut.push, Cut.push, if_neg feed, if_neg feed, ← ih]

theorem size_ended_foldl_push (octets : List UInt8) (cut : Cut) :
    (octets.foldl Cut.push cut).ended.size = cut.ended.size + octets.count lineFeed := by
  induction octets generalizing cut with
  | nil => rfl
  | cons octet more ih =>
    rw [List.foldl_cons, ih, Cut.push]
    by_cases feed : octet = lineFeed
    · rw [if_pos feed, feed, List.count_cons_self, Array.size_push]
      omega
    · rw [if_neg feed, List.count_cons_of_ne feed]

/-- There are as many lines that have ended as there are line feeds. -/
theorem size_ended (bytes : ByteArray) :
    (cut bytes).ended.size = bytes.data.toList.count lineFeed := by
  rw [cut, ← Array.foldl_toList, size_ended_foldl_push]
  exact Nat.zero_add _

theorem current_of_whole {bytes : ByteArray} (whole : Whole bytes) :
    (cut bytes).current = .empty := by
  rcases whole with rfl | feed
  · rfl
  · obtain ⟨before, octets⟩ := Array.back?_eq_some_iff.1 feed
    rw [cut, octets, Array.foldl_push, Cut.push, if_pos rfl]

/-- Octets behind lines that have ended are cut as they are by themselves. -/
theorem cut_append {a : ByteArray} (whole : Whole a) (b : ByteArray) :
    cut (a ++ b) = ⟨(cut a).ended ++ (cut b).ended, (cut b).current⟩ := by
  have left : a.data.toList.foldl Cut.push ⟨#[], .empty⟩ = ⟨(cut a).ended, .empty⟩ := by
    rw [Array.foldl_toList]
    exact congrArg (Cut.mk (cut a).ended) (current_of_whole whole)
  have right := foldl_push_ended b.data.toList (cut a).ended #[] .empty
  rw [Array.append_empty] at right
  rw [cut, ← Array.foldl_toList, ByteArray.data_append, Array.toList_append, List.foldl_append,
    left, right, cut, cut, ← Array.foldl_toList, ← Array.foldl_toList]

end TraceTables.Lines
