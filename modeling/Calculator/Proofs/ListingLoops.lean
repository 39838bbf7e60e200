import Calculator.File.Listing

/-!
# Listing with flags

A listing can be made by two loops over the entries and a flag for each. The outer loop stops at entries
that are not listed yet; the inner one goes through the later entries, and flags those that belong to
where the outer one stands. Flags are never cleared, and the loops come to the groups of the entries.
-/

namespace Calculator

namespace Listing

variable {α : Type} {n : Nat}

/-- The inner loop, from a place on: what it lists, and the flags that it leaves. -/
def collect (belongs : α → α → Bool) (items : Vector α n) (head : α) (listed : Vector Bool n)
    (place : Nat) : List α × Vector Bool n :=
  if inside : place < n then
    if listed[place] then collect belongs items head listed (place + 1)
    else if belongs head items[place] then
      let (found, marked) := collect belongs items head (listed.set place true) (place + 1)
      (items[place] :: found, marked)
    else collect belongs items head listed (place + 1)
  else ([], listed)
termination_by n - place

/-- The outer loop, from a place on. -/
def groupsFrom (belongs : α → α → Bool) (items : Vector α n) (listed : Vector Bool n) (place : Nat) :
    List (α × List α) :=
  if inside : place < n then
    if listed[place] then groupsFrom belongs items listed (place + 1)
    else
      let (found, marked) := collect belongs items items[place] listed (place + 1)
      (items[place], found) :: groupsFrom belongs items marked (place + 1)
  else []
termination_by n - place

/-- What is not listed yet, from a place on. -/
def unlisted (items : Vector α n) (listed : Vector Bool n) (place : Nat) : List α :=
  if inside : place < n then
    if listed[place] then unlisted items listed (place + 1)
    else items[place] :: unlisted items listed (place + 1)
  else []
termination_by n - place

variable {belongs : α → α → Bool} {items : Vector α n} {listed : Vector Bool n} {head : α}
  {place : Nat}

theorem unlisted_set {earlier : Nat} (inside : earlier < n) (flag : Bool) (behind : earlier < place) :
    unlisted items (listed.set earlier flag) place = unlisted items listed place := by
  fun_induction unlisted items listed place with
  | case1 place bound flagged ih =>
      rw [unlisted, dif_pos bound, Vector.getElem_set_ne inside bound (Nat.ne_of_lt behind),
        if_pos flagged, ih (Nat.lt_succ_of_lt behind)]
  | case2 place bound free ih =>
      rw [unlisted, dif_pos bound, Vector.getElem_set_ne inside bound (Nat.ne_of_lt behind),
        if_neg free, ih (Nat.lt_succ_of_lt behind)]
  | case3 place past => rw [unlisted, dif_neg past]

theorem unlisted_flagged (inside : place < n) (flagged : listed[place] = true) :
    unlisted items listed place = unlisted items listed (place + 1) := by
  rw [unlisted, dif_pos inside, if_pos flagged]

theorem unlisted_free (inside : place < n) (free : ¬listed[place] = true) :
    unlisted items listed place = items[place] :: unlisted items listed (place + 1) := by
  rw [unlisted, dif_pos inside, if_neg free]

theorem collect_behind {earlier : Nat} (inside : earlier < n) (behind : earlier < place) :
    (collect belongs items head listed place).2[earlier] = listed[earlier] := by
  fun_induction collect belongs items head listed place with
  | case1 listed place bound flagged ih => exact ih (Nat.lt_succ_of_lt behind)
  | case2 listed place bound free own found marked ran ih =>
      have later := ih (Nat.lt_succ_of_lt behind)
      rw [ran] at later
      exact later.trans (Vector.getElem_set_ne bound inside (Nat.ne_of_gt behind))
  | case3 listed place bound free other ih => exact ih (Nat.lt_succ_of_lt behind)
  | case4 => rfl

/-- The inner loop lists all that belongs to the head, and leaves the rest unlisted. -/
theorem collect_eq (belongs : α → α → Bool) (items : Vector α n) (head : α) (listed : Vector Bool n)
    (place : Nat) :
    (collect belongs items head listed place).1
        = (unlisted items listed place).filter (belongs head)
      ∧ unlisted items (collect belongs items head listed place).2 place
        = remaining belongs head (unlisted items listed place) := by
  unfold remaining
  fun_induction collect belongs items head listed place with
  | case1 listed place bound flagged ih =>
      obtain ⟨found, left⟩ := ih
      have still : (collect belongs items head listed (place + 1)).2[place] = true :=
        (collect_behind bound (Nat.lt_succ_self place)).trans flagged
      rw [unlisted_flagged bound still, unlisted_flagged bound flagged]
      exact ⟨found, left⟩
  | case2 listed place bound free own found marked ran ih =>
      have flag : (listed.set place true)[place] = true := Vector.getElem_set_self bound
      have still : marked[place] = true := by
        have kept := @collect_behind α n belongs items (listed.set place true) head (place + 1) place
          bound (Nat.lt_succ_self place)
        rw [ran] at kept
        exact kept.trans flag
      rw [ran, unlisted_set bound true (Nat.lt_succ_self place)] at ih
      obtain ⟨collected, left⟩ := ih
      rw [unlisted_flagged bound still, unlisted_free bound free, List.filter_cons_of_pos own,
        List.filter_cons_of_neg (by simp [own])]
      exact ⟨congrArg (items[place] :: ·) collected, left⟩
  | case3 listed place bound free other ih =>
      have still : ¬(collect belongs items head listed (place + 1)).2[place] = true := by
        rw [collect_behind bound (Nat.lt_succ_self place)]
        exact free
      rw [unlisted_free bound still, unlisted_free bound free, List.filter_cons_of_neg other,
        List.filter_cons_of_pos (by simp [other]), ih.2]
      exact ⟨ih.1, rfl⟩
  | case4 listed place past =>
      rw [unlisted, dif_neg past]
      exact ⟨rfl, rfl⟩

theorem groupsFrom_eq (belongs : α → α → Bool) (items : Vector α n) (listed : Vector Bool n)
    (place : Nat) :
    groupsFrom belongs items listed place = groups belongs (unlisted items listed place) := by
  fun_induction groupsFrom belongs items listed place with
  | case1 listed place bound flagged ih =>
      rw [unlisted_flagged bound flagged]
      exact ih
  | case2 listed place bound free found marked ran ih =>
      obtain ⟨collected, left⟩ := collect_eq belongs items items[place] listed (place + 1)
      rw [ran] at collected left
      rw [unlisted_free bound free, groups, ih, ← left, ← collected]
  | case3 listed place past => rw [unlisted, dif_neg past, groups]

theorem unlisted_none (items : Vector α n) (place : Nat) :
    unlisted items (Vector.replicate n false) place = items.toList.drop place := by
  fun_induction unlisted items (Vector.replicate n false) place with
  | case1 place bound flagged ih =>
      rw [Vector.getElem_replicate] at flagged
      cases flagged
  | case2 place bound free ih =>
      have length : place < items.toList.length := by
        rw [Vector.length_toList]
        exact bound
      rw [ih, List.drop_eq_getElem_cons length, Vector.getElem_toList]
  | case3 place past =>
      have length : items.toList.length ≤ place := by
        rw [Vector.length_toList]
        exact Nat.le_of_not_lt past
      rw [List.drop_eq_nil_of_le length]

theorem groupsFrom_start (belongs : α → α → Bool) (items : List α) :
    groupsFrom belongs ⟨items.toArray, rfl⟩ (Vector.replicate _ false) 0 = groups belongs items := by
  rw [groupsFrom_eq, unlisted_none]
  rfl

end Listing

end Calculator
