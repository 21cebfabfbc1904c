import TurtleGraphics.CommandLine.Disk
import TurtleGraphics.Proofs.Outcome

/-!
# Writing files

Writing at a path changes what is found at the place that the path leads to, and nothing else
(`Disk.locate_of_write`). It makes no directory and takes none away, so every path that led to a
place before still leads there (`Disk.locate_write_iff`), and what was written is read back, unless
the path leads to the device that keeps nothing (`Disk.has_of_write`).
-/

namespace TurtleGraphics

/-- Folds that take the same steps come to the same end. -/
theorem foldlM_eq_ok_congr {ε σ α : Type} {f g : σ → α → Except ε σ}
    (h : ∀ s a s', f s a = .ok s' ↔ g s a = .ok s') {as : List α} {s s' : σ} :
    as.foldlM f s = .ok s' ↔ as.foldlM g s = .ok s' := by
  induction as generalizing s with
  | nil => rfl
  | cons a as ih =>
    rw [List.foldlM_cons, List.foldlM_cons, bind_eq_ok, bind_eq_ok]
    exact exists_congr fun t ↦ and_congr (h s a t) ih

end TurtleGraphics

namespace TurtleGraphics.CommandLine.Disk

variable {d d' : Disk} {place p : Place} {path text : String} {entry : Option Entry}

/-! ## Where a path leads -/

theorem look_eq_ok_iff : d.look p = .ok entry ↔
    p.getLast?.any (greatestNameSize < ·.utf8ByteSize) = false ∧ d.get? p = entry := by
  unfold look
  split
  · rename_i hlong
    simp [hlong]
  · rename_i hshort
    simp [Bool.not_eq_true _ ▸ hshort]

theorem look_put_of_ne (h : p ≠ place) : (d.put place text).look p = d.look p := by
  rw [look, look, get?_put, if_neg h]

theorem step_eq_ok_iff {name : String} {q : Place} : d.step p name = .ok q ↔
    d.look p = .ok (some .directory) ∧
      (if name = "." then p else if name = ".." then p.dropLast else p ++ [name]) = q := by
  unfold step
  rw [bind_eq_ok]
  constructor
  · rintro ⟨entry, hlook, hstep⟩
    split at hstep
    · cases hstep
    · exact ⟨hlook, return_eq_ok.1 hstep⟩
    · cases hstep
  · rintro ⟨hlook, rfl⟩
    exact ⟨_, hlook, rfl⟩

/-- A file that is written is no directory, before and after. -/
theorem look_put_eq_directory_iff (h : d.get? place ≠ some .directory) :
    (d.put place text).look p = .ok (some .directory) ↔ d.look p = .ok (some .directory) := by
  by_cases hp : p = place
  · subst hp
    rw [look_eq_ok_iff, look_eq_ok_iff, get?_put, if_pos rfl]
    simp [h]
  · rw [look_put_of_ne hp]

theorem locate_put_iff (h : d.get? place ≠ some .directory) :
    (d.put place text).locate path = .ok p ↔ d.locate path = .ok p := by
  have hstep : ∀ s name s', (d.put place text).step s name = .ok s' ↔ d.step s name = .ok s' := by
    intro s name s'
    rw [step_eq_ok_iff, step_eq_ok_iff, look_put_eq_directory_iff h]
  unfold locate
  split
  · rfl
  · exact foldlM_eq_ok_congr hstep

/-! ## What writing does -/

/-- Whether what is written at the path is dropped. -/
def Drops (d : Disk) (path : String) : Prop :=
  ∃ place, d.locate path = .ok place ∧ d.get? place = some .null

/-- Whether the file at the path has the text, unless nothing is kept there. -/
def Has (d : Disk) (path text : String) : Prop := d.read path = .ok text ∨ d.Drops path

/-- A text is dropped, or it becomes that of the file at the place that the path leads to. -/
theorem write_cases (h : d.write path text = .ok d') :
    ∃ place, d.locate path = .ok place ∧
      (d.get? place = some .null ∧ d' = d ∨
        endsInSlash path = false ∧ d.look place = .ok (d.get? place) ∧
          d.get? place ≠ some .null ∧ d.get? place ≠ some .directory ∧ d' = d.put place text) := by
  unfold write at h
  obtain ⟨place, hplace, h⟩ := bind_eq_ok.1 h
  refine ⟨place, hplace, ?_⟩
  split at h
  · cases h
  rename_i hslash
  obtain ⟨entry, hlook, h⟩ := bind_eq_ok.1 h
  obtain ⟨-, hentry⟩ := look_eq_ok_iff.1 hlook
  have hkept (hfile : entry ≠ some .null ∧ entry ≠ some .directory)
      (hput : d' = d.put place text) :
      endsInSlash path = false ∧ d.look place = .ok (d.get? place) ∧
        d.get? place ≠ some .null ∧ d.get? place ≠ some .directory ∧ d' = d.put place text := by
    rw [hentry]
    exact ⟨Bool.not_eq_true _ ▸ hslash, hlook, hfile.1, hfile.2, hput⟩
  split at h
  · cases h
  · exact .inl ⟨hentry, (return_eq_ok.1 h).symm⟩
  · exact .inr (hkept ⟨by simp, by simp⟩ (return_eq_ok.1 h).symm)
  · exact .inr (hkept ⟨by simp, by simp⟩ (return_eq_ok.1 h).symm)

/-- Nothing changes but what is found where the path leads. -/
theorem locate_of_write (h : d.write path text = .ok d') (hp : d'.get? p ≠ d.get? p) :
    d.locate path = .ok p := by
  obtain ⟨place, hplace, ⟨-, rfl⟩ | ⟨-, -, -, -, rfl⟩⟩ := write_cases h
  · exact absurd rfl hp
  · rw [get?_put] at hp
    split at hp
    · rename_i heq
      rw [heq]
      exact hplace
    · exact absurd rfl hp

/-- Paths lead to the same places after a file was written. -/
theorem locate_write_iff (h : d.write path text = .ok d') {q : String} :
    d'.locate q = .ok p ↔ d.locate q = .ok p := by
  obtain ⟨place, -, ⟨-, rfl⟩ | ⟨-, -, -, hdirectory, rfl⟩⟩ := write_cases h
  · rfl
  · exact locate_put_iff hdirectory

/-- A file of text can be read, at a path that does not end in a slash. -/
theorem read_of_look (hplace : d.locate path = .ok place)
    (hlook : d.look place = .ok (some (.file (some text)))) (hslash : endsInSlash path = false) :
    d.read path = .ok text := by
  unfold read
  rw [hplace]
  change (d.look place >>= _) = _
  rw [hlook]
  simp only [hslash]
  rfl

/-- What is written is read back. -/
theorem has_of_write (h : d.write path text = .ok d') : d'.Has path text := by
  have hlocate {p : Place} := locate_write_iff h (q := path) (p := p)
  obtain ⟨place, hplace, ⟨hnull, rfl⟩ | ⟨hslash, hlook, -, -, rfl⟩⟩ := write_cases h
  · exact .inr ⟨place, hplace, hnull⟩
  · refine .inl (read_of_look (hlocate.2 hplace) ?_ hslash)
    rw [look_eq_ok_iff, get?_put, if_pos rfl]
    exact ⟨(look_eq_ok_iff.1 hlook).1, rfl⟩

/-- What can be read depends on what is found where the path leads. -/
theorem read_of_look_eq (hplace : d.locate path = .ok place) (hplace' : d'.locate path = .ok place)
    (hlook : d'.look place = d.look place) : d'.read path = d.read path := by
  unfold read
  rw [hplace, hplace']
  change (d'.look place >>= _) = (d.look place >>= _)
  rw [hlook]

/-- A file keeps its text while another one is written. -/
theorem Has.write (h : d.Has path text) {q u : String} (hwrite : d.write q u = .ok d')
    (hne : ∀ place, d.locate q = .ok place → d.locate path ≠ .ok place) : d'.Has path text := by
  have hlocate {p : Place} := locate_write_iff hwrite (q := path) (p := p)
  obtain ⟨place, hplace, ⟨-, rfl⟩ | ⟨-, -, -, -, rfl⟩⟩ := write_cases hwrite
  · exact h
  have hother (p : Place) (hp : d.locate path = .ok p) : p ≠ place := by
    rintro rfl
    exact hne p hplace hp
  rcases h with hread | ⟨p, hp, hnull⟩
  · obtain ⟨p, hp, -⟩ := bind_eq_ok.1 hread
    refine .inl ?_
    rw [read_of_look_eq hp (hlocate.2 hp) (look_put_of_ne (hother p hp)), hread]
  · refine .inr ⟨p, hlocate.2 hp, ?_⟩
    rw [get?_put, if_neg (hother p hp), hnull]

end TurtleGraphics.CommandLine.Disk
