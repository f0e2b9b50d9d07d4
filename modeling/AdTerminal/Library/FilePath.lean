import Mathlib.Data.List.Infix

/-! Slash-separated paths, resolved component by component. An empty component and "." stay
where they are, and ".." goes up one directory, from the root to itself. A relative path
comes down to a number of steps up and the components it then goes down. -/

namespace AdTerminal.FilePath

/-- The components that lead somewhere. -/
def parts (path : String) : List (List Char) :=
  (path.toList.splitOn '/').filter fun part => part ≠ [] ∧ part ≠ ['.']

/-- The component ".." names the directory above. -/
def up : List Char := ['.', '.']

/-- Where a path can lead from the root: components without empty ones, "." and "..". -/
abbrev Place := List (List Char)

def enter (directory : Place) (part : List Char) : Place :=
  if part = up then directory.dropLast else directory ++ [part]

/-- Where a path leads from the root. -/
def resolve (path : String) : Place := (parts path).foldl enter []

/-- A name below a directory. -/
def join (directory name : String) : String := directory ++ "/" ++ name

/-- The path leads to something below the directory. -/
def Under (directory path : String) : Prop :=
  resolve directory <+: resolve path ∧ resolve directory ≠ resolve path

/-- One component of a relative path that has gone up so many steps, and then down. -/
def climbPart (climbed : Nat × List (List Char)) (part : List Char) : Nat × List (List Char) :=
  if part = up then
    if climbed.2 = [] then (climbed.1 + 1, []) else (climbed.1, climbed.2.dropLast)
  else (climbed.1, climbed.2 ++ [part])

/-- The steps up that a relative path comes down to, and the components after them. -/
def climb (name : String) : Nat × List (List Char) := (parts name).foldl climbPart (0, [])

/-- What the name goes up from the directory it goes down again, by the same components,
and further. -/
def Stays (directory name : String) : Prop :=
  let left := (resolve directory).drop ((resolve directory).length - (climb name).1)
  left <+: (climb name).2 ∧ left ≠ (climb name).2

instance (directory path : String) : Decidable (Under directory path) := inferInstanceAs (Decidable (_ ∧ _))
instance (directory name : String) : Decidable (Stays directory name) := inferInstanceAs (Decidable (_ ∧ _))

theorem parts_join (directory name : String) : parts (join directory name) = parts directory ++ parts name := by
  have split : (join directory name).toList = directory.toList ++ '/' :: name.toList := by
    simp [join]
  rw [parts, split, List.splitOn_append_cons_self, List.filter_append]
  rfl

/-- A trailing slash adds no component. -/
theorem parts_slash (directory : String) : parts (directory ++ "/") = parts directory := by
  have empty : directory ++ "/" = join directory "" := by simp [join]
  rw [empty, parts_join]
  exact List.append_nil _

/-- After a trailing slash, concatenation and `join` lead to the same place. -/
theorem resolve_slash (directory name : String) :
    resolve (directory ++ "/" ++ name) = resolve (join (directory ++ "/") name) := by
  have left : parts (directory ++ "/" ++ name) = parts directory ++ parts name := parts_join directory name
  rw [resolve, resolve, left, parts_join, parts_slash]

/-- Going down a relative path from a directory. -/
theorem foldl_enter (directory parts : List (List Char)) :
    parts.foldl enter directory =
      directory.take (directory.length - (parts.foldl climbPart (0, [])).1) ++
        (parts.foldl climbPart (0, [])).2 := by
  induction parts using List.reverseRecOn with
  | nil => simp
  | append_singleton parts part ih =>
    rw [List.foldl_append, List.foldl_append, ih]
    generalize parts.foldl climbPart (0, []) = climbed
    simp only [List.foldl_cons, List.foldl_nil, enter, climbPart]
    by_cases above : part = up
    · rw [if_pos above, if_pos above]
      by_cases top : climbed.2 = []
      · rw [if_pos top, top, List.append_nil, List.append_nil, List.dropLast_eq_take, List.take_take,
          List.length_take]
        congr 1
        omega
      · rw [if_neg top, List.dropLast_append_of_ne_nil top]
    · rw [if_neg above, if_neg above, List.append_assoc]

theorem resolve_join (directory name : String) :
    resolve (join directory name) =
      (resolve directory).take ((resolve directory).length - (climb name).1) ++ (climb name).2 := by
  rw [resolve, parts_join, List.foldl_append]
  exact foldl_enter _ _

/-- A name leads to something below the directory exactly when it stays there. -/
theorem under_join_iff (directory name : String) : Under directory (join directory name) ↔ Stays directory name := by
  unfold Under Stays
  rw [resolve_join]
  generalize resolve directory = above
  generalize above.length - (climb name).1 = kept
  generalize (climb name).2 = down
  have below : above <+: above.take kept ++ down ↔ above.drop kept <+: down := by
    calc above <+: above.take kept ++ down
      _ ↔ above.take kept ++ above.drop kept <+: above.take kept ++ down := by rw [List.take_append_drop]
      _ ↔ above.drop kept <+: down := List.prefix_append_right_inj _
  have further : above = above.take kept ++ down ↔ above.drop kept = down := by
    calc above = above.take kept ++ down
      _ ↔ above.take kept ++ above.drop kept = above.take kept ++ down := by rw [List.take_append_drop]
      _ ↔ above.drop kept = down := List.append_right_inj _
  exact and_congr below (not_congr further)

/-- So it does when it is appended to a directory with a trailing slash. -/
theorem under_append_iff (directory name : String) :
    Under (directory ++ "/") (directory ++ "/" ++ name) ↔ Stays (directory ++ "/") name := by
  rw [Under, resolve_slash]
  exact under_join_iff (directory ++ "/") name

/-- A single component stays in every directory. -/
theorem stays_component (directory : String) {name : String} (single : '/' ∉ name.toList) (present : name ≠ "")
    (here : name ≠ ".") (above : name ≠ "..") : Stays directory name := by
  have part : parts name = [name.toList] := by
    rw [parts, List.splitOn_eq_singleton single]
    apply List.filter_eq_self.mpr
    intro part only
    obtain rfl := List.mem_singleton.mp only
    have nonempty : name.toList ≠ [] := fun same => present (String.toList_inj.mp same)
    have other : name.toList ≠ ['.'] := fun same => here (String.toList_inj.mp same)
    exact decide_eq_true ⟨nonempty, other⟩
  have down : climb name = (0, [name.toList]) := by
    have other : name.toList ≠ up := fun same => above (String.toList_inj.mp same)
    simp only [climb, part, List.foldl_cons, List.foldl_nil, climbPart, if_neg other, List.nil_append]
  simp [Stays, down]

/-- The empty name leads to the directory itself. -/
theorem not_stays_empty (directory : String) : ¬ Stays directory "" := by
  have nowhere : climb "" = (0, []) := rfl
  simp [Stays, nowhere]

end AdTerminal.FilePath
