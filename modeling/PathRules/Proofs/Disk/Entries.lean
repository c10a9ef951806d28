import PathRules.Disk
import PathRules.Proofs.Text.Splitting

/-!
# Paths of entries

The path of an entry, joined from the path of a directory and a name, leads to what the directory
holds under the name (`find_join`), if it is not too long to be followed (`isFile_join`).
-/

namespace PathRules

/-- A name that a directory can hold. -/
structure Path.IsName (name : Text) : Prop where
  nonempty : name ≠ []
  whole : '/' ∉ name
  zeroFree : '\x00' ∉ name
  notHere : name ≠ ['.']
  notAbove : name ≠ ['.', '.']
  short : Text.byteLength name ≤ Disk.maxNameLength

theorem Path.join_injective {dir name other : Text} (same : Path.join dir name = Path.join dir other) :
    name = other := by
  unfold Path.join at same
  split at same
  · exact List.append_cancel_left same
  · exact (List.cons.inj (List.append_cancel_left same)).2

namespace Disk

/-! ### Following segments -/

/-- The chain of directories after one more segment. -/
def enter (node : Node) (above : List Node) (segment : Text) : Except ReadProblem (List Node) :=
  if !node.isDirectory then .error .notDirectory
  else if segment.isEmpty || segment = ['.'] then .ok (node :: above)
  else if segment = ['.', '.'] then .ok (if above.isEmpty then [node] else above)
  else if maxNameLength < Text.byteLength segment then .error .nameTooLong
  else match node.entry? segment with
    | none => .error .notFound
    | some entry => .ok (entry :: node :: above)

theorem follow_cons (node : Node) (above : List Node) (segment : Text) (rest : List Text) :
    follow (node :: above) (segment :: rest) =
      (enter node above segment).bind (follow · rest) := by
  conv => lhs; unfold follow
  unfold enter
  split
  · rfl
  split
  · rfl
  split
  · cases above <;> rfl
  split
  · rfl
  cases node.entry? segment <;> rfl

theorem enter_empty {node : Node} {above chain : List Node}
    (entered : enter node above [] = .ok chain) : chain = node :: above := by
  unfold enter at entered
  split at entered
  · cases entered
  · exact (Except.ok.inj entered).symm

theorem enter_name {entries : List (Text × Node)} {above : List Node} {name : Text}
    (proper : Path.IsName name) :
    enter (.directory entries) above name =
      match entries.lookup name with
      | none => .error .notFound
      | some entry => .ok (entry :: .directory entries :: above) := by
  have something : ¬ (name.isEmpty || name = ['.']) = true := by
    simp [proper.nonempty, proper.notHere]
  unfold enter
  rw [if_neg (by simp [Node.isDirectory]), if_neg something, if_neg proper.notAbove,
    if_neg (Nat.not_lt.mpr proper.short)]
  rfl

/-- More segments are followed from where the first ones lead to. -/
theorem follow_append (chain : List Node) (segments rest : List Text) :
    (∃ problem, follow chain segments = .error problem ∧
      follow chain (segments ++ rest) = .error problem) ∨
    ∃ node above, follow chain segments = .ok node ∧
      follow chain (segments ++ rest) = follow (node :: above) rest := by
  induction segments generalizing chain with
  | nil =>
    cases chain with
    | nil => exact .inl ⟨.notFound, rfl, by unfold follow; rfl⟩
    | cons node above => exact .inr ⟨node, above, rfl, rfl⟩
  | cons segment segments ih =>
    cases chain with
    | nil => exact .inl ⟨.notFound, rfl, rfl⟩
    | cons node above =>
      rw [List.cons_append, follow_cons, follow_cons]
      cases enter node above segment with
      | error problem => exact .inl ⟨problem, rfl, rfl⟩
      | ok chain => exact ih chain

variable {chain : List Node} {segments : List Text} {entries : List (Text × Node)}

theorem follow_ended {node : Node} (found : follow chain (segments ++ [[]]) = .ok node) :
    follow chain segments = .ok node := by
  rcases follow_append chain segments [[]] with ⟨problem, _, failed⟩ | ⟨first, above, led, goes⟩
  · rw [failed] at found
    cases found
  · rw [goes, follow_cons] at found
    cases entered : enter first above [] with
    | error problem =>
      rw [entered] at found
      cases found
    | ok chain =>
      rw [entered, enter_empty entered] at found
      exact led.trans found

theorem follow_entry (held : follow chain segments = .ok (.directory entries)) {name : Text}
    (proper : Path.IsName name) :
    follow chain (segments ++ [name]) =
      match entries.lookup name with
      | none => .error .notFound
      | some entry => .ok entry := by
  rcases follow_append chain segments [name] with ⟨problem, failed, _⟩ | ⟨node, above, led, goes⟩
  · rw [failed] at held
    cases held
  · obtain rfl := Except.ok.inj (led.symm.trans held)
    rw [goes, follow_cons, enter_name proper]
    cases entries.lookup name <;> rfl

/-! ### The path of an entry -/

/-- The segments that lead from the root to what a path names. -/
def segmentsOf (disk : Disk) (path : Text) : List Text :=
  (if Path.isAbsolute path then [] else disk.workingDirectory) ++ Text.split '/' path

/-- What a path has to be for a disk to follow it. -/
structure CanFollow (path : Text) : Prop where
  zeroFree : '\x00' ∉ path
  nonempty : path ≠ []
  short : Text.byteLength path ≤ maxPathLength

variable {disk : Disk} {dir name : Text}

theorem find_of_canFollow {path : Text} (can : CanFollow path) :
    disk.find path = follow [disk.root] (disk.segmentsOf path) := by
  unfold find segmentsOf
  rw [if_neg (by simpa using can.zeroFree), if_neg (by simpa using can.nonempty),
    if_neg (Nat.not_lt.mpr can.short)]
  split <;> rfl

theorem canFollow_of_find {path : Text} {node : Node} (found : disk.find path = .ok node) :
    CanFollow path := by
  unfold find at found
  split at found
  · cases found
  next zeroFree =>
  split at found
  · cases found
  next nonempty =>
  split at found
  · cases found
  next short => exact ⟨by simpa using zeroFree, by simpa using nonempty, Nat.not_lt.mp short⟩

theorem isAbsolute_join (nonempty : dir ≠ []) :
    Path.isAbsolute (Path.join dir name) = Path.isAbsolute dir := by
  obtain ⟨c, rest, rfl⟩ := List.exists_cons_of_ne_nil nonempty
  unfold Path.join
  split <;> rfl

theorem canFollow_join (can : CanFollow dir) (proper : Path.IsName name)
    (short : Text.byteLength (Path.join dir name) ≤ maxPathLength) :
    CanFollow (Path.join dir name) := by
  refine ⟨?_, ?_, short⟩
  · unfold Path.join
    split <;> simp [can.zeroFree, proper.zeroFree]
  · unfold Path.join
    split <;> simp [proper.nonempty]

/-- A separator at the end of the path of a directory is no segment of the path of an entry. -/
theorem split_join_name (nonempty : dir ≠ []) (whole : '/' ∉ name) :
    ∃ segments, Text.split '/' (Path.join dir name) = segments ++ [name] ∧
      (Text.split '/' dir = segments ∨ Text.split '/' dir = segments ++ [[]]) := by
  unfold Path.join
  split
  · next ended =>
    obtain ⟨front, rfl⟩ : ∃ front, dir = front ++ ['/'] := by
      have last : dir.getLast? = some '/' := by simpa [nonempty] using ended
      exact List.getLast?_eq_some_iff.mp last
    refine ⟨Text.split '/' front, ?_, .inr ?_⟩
    · rw [List.append_assoc, List.singleton_append, Text.split_append,
        Text.split_of_not_mem whole]
    · exact Text.split_append '/' front []
  · refine ⟨Text.split '/' dir, ?_, .inl rfl⟩
    rw [Text.split_append, Text.split_of_not_mem whole]

/-- The path of an entry leads to the entry, unless it is too long. -/
theorem find_join (held : disk.find dir = .ok (.directory entries)) (proper : Path.IsName name)
    (short : Text.byteLength (Path.join dir name) ≤ maxPathLength) :
    disk.find (Path.join dir name) =
      match entries.lookup name with
      | none => .error .notFound
      | some entry => .ok entry := by
  have can := canFollow_of_find held
  obtain ⟨segments, joined, ends⟩ := split_join_name can.nonempty proper.whole
  have led : follow [disk.root] ((if Path.isAbsolute dir then [] else disk.workingDirectory) ++
      segments) = .ok (.directory entries) := by
    rw [find_of_canFollow can, segmentsOf] at held
    rcases ends with same | ended
    · rwa [same] at held
    · rw [ended, ← List.append_assoc] at held
      exact follow_ended held
  rw [find_of_canFollow (canFollow_join can proper short), segmentsOf, joined,
    isAbsolute_join can.nonempty, ← List.append_assoc]
  exact follow_entry led proper

theorem isFile_iff {path : Text} :
    disk.isFile path = true ↔ ∃ bytes, disk.find path = .ok (.file bytes) := by
  unfold isFile
  cases disk.find path with
  | error problem => simp
  | ok node => cases node <;> simp [Node.isFile]

theorem isFile_join (held : disk.find dir = .ok (.directory entries)) (proper : Path.IsName name) :
    disk.isFile (Path.join dir name) = true ↔
      Text.byteLength (Path.join dir name) ≤ maxPathLength ∧
      ∃ bytes, entries.lookup name = some (.file bytes) := by
  rw [isFile_iff]
  constructor
  · rintro ⟨bytes, found⟩
    have short := (canFollow_of_find found).short
    rw [find_join held proper short] at found
    cases entry : entries.lookup name with
    | none =>
      rw [entry] at found
      cases found
    | some node =>
      rw [entry] at found
      exact ⟨short, bytes, congrArg some (Except.ok.inj found)⟩
  · rintro ⟨short, bytes, entry⟩
    refine ⟨bytes, ?_⟩
    rw [find_join held proper short, entry]

end Disk
end PathRules
