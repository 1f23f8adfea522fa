import LintReport.FileTree.Make
import LintReport.Proofs.Effects
import LintReport.Proofs.FileTree.Tree

/-!
# Directories on a Way

A directory is made together with the directories above it by one attempt after the other, each at a
beginning of the path. Whatever becomes of an attempt, a directory is only put where such a
beginning leads and nothing is yet. So a way down from a directory that is there is laid with
directories, and nothing else changes.

## Main definitions

* `FileTree.Makes`: the trees that attempts on the way of a path lead to.
* `FileTree.Attempts`: an attempt and what it says about the last directory.
* `FileTree.Lays`: a tree with directories along a way down, and otherwise as it was.

## Main results

* `makeWithParents_attempts`, `makeFromTop_attempts`: both ways of making directories are such
  attempts, and there is a directory at the path unless they fail.
* `Makes.resolve_of_ne`: what is put is a directory where a beginning of the path leads.
* `Makes.lays`: **only the way is laid**.
* `makeWithParents_of_isDirectory`, `makeFromTop_of_isDirectory`: a directory that is there is left.
* `place_of_makeDirectory`: a directory that can be made is all that is placed.
-/

namespace LintReport.FileTree

variable {t u : FileTree} {k l b : Location} {p q : Path} {rest : List String}

/-! ### One directory -/

/-- A directory that can be made is put where its path leads. -/
theorem makeDirectory_eq_ok_iff :
    t.makeDirectory p = .ok u ↔
      ∃ l, t.resolve p = .ok l ∧ t.entry? l = none ∧ u = t.put l .directory := by
  rw [makeDirectory]
  cases t.resolve p with
  | error kind => simp [bind, Except.bind]
  | ok l =>
    cases hentry : t.entry? l with
    | some e => simp [bind, Except.bind, hentry]
    | none => simp [bind, Except.bind, hentry, @eq_comm _ u]

/-- A directory that has been made is there. -/
theorem isDirectory_of_makeDirectory (h : t.makeDirectory p = .ok u) :
    u.isDirectory p = true := by
  obtain ⟨l, hresolve, hnone, rfl⟩ := makeDirectory_eq_ok_iff.1 h
  have hl : t.entry? l ≠ some .directory := by
    rw [hnone]
    nofun
  exact isDirectory_iff.2
    ⟨l, resolve_put hl _ hresolve, entry?_put_self (names_ne_nil_of_ne hl) t _⟩

/-- The trees that attempts on the way of a path lead to: each puts a directory where a beginning of
the path leads and nothing is. -/
inductive Makes (p : Path) : FileTree → FileTree → Prop
  | none (t : FileTree) : Makes p t t
  | put {t u : FileTree} {q : Path} {l : Location} : Makes p t u → q.start = p.start →
    q.names <+: p.names → u.resolve q = .ok l → u.entry? l = none → Makes p t (u.put l .directory)

namespace Makes

theorem trans {v : FileTree} (h : Makes p t u) (h' : Makes p u v) : Makes p t v := by
  induction h' with
  | none => exact h
  | put _ hstart hnames hresolve hnone ih => exact ih.put hstart hnames hresolve hnone

/-- Attempts on the way of a beginning are attempts on the way of the path. -/
theorem of_parent (h : Makes p.parent t u) : Makes p t u := by
  induction h with
  | none => exact .none _
  | put _ hstart hnames hresolve hnone ih =>
    exact ih.put hstart (hnames.trans (List.dropLast_prefix p.names)) hresolve hnone

theorem of_makeDirectory (h : t.makeDirectory p = .ok u) : Makes p t u := by
  obtain ⟨l, hresolve, hnone, rfl⟩ := makeDirectory_eq_ok_iff.1 h
  exact (none t).put rfl (List.prefix_refl _) hresolve hnone

end Makes

/-- An attempt to make a directory: it makes directories on the way, and the last one too unless it
fails. -/
structure Attempts {ε α : Type} (p : Path) (t : FileTree) (ran : Except ε α × FileTree) : Prop where
  makes : Makes p t ran.2
  done : ∀ a, ran.1 = .ok a → ran.2.isDirectory p = true

/-- A directory that cannot be made may be there already. -/
theorem unlessDirectory_attempts (kind : FileFault.Kind) (p : Path) (t : FileTree) :
    Attempts p t ((do
      if !(← get).isDirectory p then throw ⟨kind, p.text⟩ : Step FileFault Unit).run.run t) := by
  rw [run_get_bind]
  cases hthere : t.isDirectory p with
  | true => exact ⟨.none t, fun _ _ => hthere⟩
  | false => exact ⟨.none t, nofun⟩

theorem ensureOne_attempts (p : Path) (t : FileTree) :
    Attempts p t ((ensureOne p).run.run t) := by
  rw [ensureOne, run_get_bind]
  cases hmake : t.makeDirectory p with
  | ok u => exact ⟨.of_makeDirectory hmake, fun _ _ => isDirectory_of_makeDirectory hmake⟩
  | error kind => exact unlessDirectory_attempts kind p t

/-- A directory is attempted after attempts on the way to the one that holds it. -/
theorem attempts_of_parent {x : Step FileFault Unit} (h : Makes p.parent t (x.run.run t).2) :
    Attempts p t ((do x; ensureOne p).run.run t) := by
  cases hran : x.run.run t with
  | mk result u =>
    rw [hran] at h
    cases result with
    | error fault =>
      rw [run_bind_error hran]
      exact ⟨h.of_parent, nofun⟩
    | ok _ =>
      rw [run_bind_ok hran]
      have hlast := ensureOne_attempts p u
      exact ⟨h.of_parent.trans hlast.makes, hlast.done⟩

/-- **A directory is made with its parents by attempts on its way.** -/
theorem makeWithParents_attempts (budget : Nat) (p : Path) (t : FileTree) :
    Attempts p t ((makeWithParents budget p).run.run t) := by
  induction budget generalizing p with
  | zero => exact ⟨.none t, nofun⟩
  | succ budget ih =>
    rw [makeWithParents, run_get_bind]
    cases hmake : t.makeDirectory p with
    | ok u => exact ⟨.of_makeDirectory hmake, fun _ _ => isDirectory_of_makeDirectory hmake⟩
    | error kind =>
      cases kind with
      | notFound =>
        dsimp only
        split
        · exact ⟨.none t, nofun⟩
        · exact attempts_of_parent (ih p.parent).makes
      | _ => exact unlessDirectory_attempts _ p t

/-- **A directory is made from the top by attempts on its way.** -/
theorem makeFromTop_attempts (above : Nat) (p : Path) (t : FileTree) :
    Attempts p t ((makeFromTop above p).run.run t) := by
  induction above generalizing p with
  | zero => exact ensureOne_attempts p t
  | succ above ih =>
    rw [makeFromTop, run_get_bind]
    split
    · refine attempts_of_parent ?_
      have hparent := (ih p.parent).makes
      cases hran : (makeFromTop above p.parent).run.run t with
      | mk result u =>
        rw [hran] at hparent
        cases result with
        | ok _ =>
          rw [run_tryCatch_ok hran]
          exact hparent
        | error fault =>
          rw [run_tryCatch_error hran]
          split <;> exact hparent
    · exact ensureOne_attempts p t

/-! ### Ways down -/

/-- A tree with directories along a way down from a location, which is otherwise as it was. -/
structure Lays (b : Location) (rest : List String) (t u : FileTree) : Prop where
  tree : u.IsTree
  keeps : ∀ k e, t.entry? k = some e → u.entry? k = some e
  onWay : ∀ i ≤ rest.length, u.entry? (b.descend (rest.take i)) = some .directory
  elsewhere : ∀ k, (∀ i ≤ rest.length, k ≠ b.descend (rest.take i)) → u.entry? k = t.entry? k

/-- Down to a directory there are directories. -/
theorem directories_of_isDirectory (hp : t.stat p = .ok (b, .directory)) (hdown : ".." ∉ rest)
    (h : t.isDirectory (p.descend rest) = true) :
    t.resolve (p.descend rest) = .ok (b.descend rest) ∧
      ∀ i ≤ rest.length, t.entry? (b.descend (rest.take i)) = some .directory := by
  obtain ⟨hb, -⟩ := stat_eq_ok_iff.1 hp
  obtain ⟨l, hresolve, hl⟩ := isDirectory_iff.1 h
  obtain ⟨-, m, hm, hwalk⟩ := resolve_descend_iff.1 hresolve
  obtain rfl : b = m := Except.ok.inj (hb.symm.trans hm)
  obtain ⟨rfl, -, hopen⟩ := (walk_eq_ok_iff hdown).1 hwalk
  refine ⟨hresolve, fun i hi => ?_⟩
  obtain hlt | rfl := Nat.lt_or_eq_of_le hi
  · exact hopen i hlt
  · rwa [List.take_length]

/-- From a directory on, only the rest of the way is laid. -/
theorem Lays.tail {name : String} (h : Lays b (name :: rest) t u)
    (hb : t.entry? b = some .directory) : Lays (b.child name) rest t u where
  tree := h.tree
  keeps := h.keeps
  onWay i hi := by
    have hnext := h.onWay (i + 1) (Nat.succ_le_succ hi)
    rwa [List.take_succ_cons, Location.descend_cons] at hnext
  elsewhere k hk := by
    by_cases hkb : k = b
    · rw [hkb, hb, h.keeps b _ hb]
    · refine h.elsewhere k fun i hi => ?_
      cases i with
      | zero => rwa [List.take_zero, Location.descend_nil]
      | succ i =>
        rw [List.take_succ_cons, Location.descend_cons]
        exact hk i (Nat.le_of_succ_le_succ hi)

namespace Makes

theorem keeps (h : Makes p t u) {e : Entry} (hk : t.entry? k = some e) : u.entry? k = some e := by
  induction h with
  | none => exact hk
  | @put u q l _ _ _ _ hnone ih =>
    have hne : k ≠ l := by
      rintro rfl
      rw [ih] at hnone
      cases hnone
    rw [ entry?_put_of_ne hne, ih]

theorem isTree (h : Makes p t u) (ht : t.IsTree) : u.IsTree := by
  induction h with
  | none => exact ht
  | put _ _ _ hresolve hnone ih => exact ih.put_of_resolve hresolve (by rw [hnone]; nofun) _

/-- What is put is a directory where a beginning of the path leads and nothing was. -/
theorem resolve_of_ne (h : Makes p t u) (hne : u.entry? k ≠ t.entry? k) :
    t.entry? k = Option.none ∧ u.entry? k = some .directory ∧
      ∃ q, q.start = p.start ∧ q.names <+: p.names ∧ u.resolve q = .ok k := by
  induction h with
  | none => exact absurd rfl hne
  | @put u q l hmakes hstart hnames hresolve hnone ih =>
    have hstep := (none u).put hstart hnames hresolve hnone
    have hkept {q : Path} {k : Location} (hq : u.resolve q = .ok k) :
        (u.put l .directory).resolve q = .ok k := resolve_mono (fun _ => hstep.keeps) hq
    by_cases hkl : k = l
    · rw [hkl]
      have hl : t.entry? l = Option.none := by
        cases hentry : t.entry? l with
        | none => rfl
        | some e =>
          rw [hmakes.keeps hentry] at hnone
          cases hnone
      have hnames' : l.names ≠ [] := names_ne_nil_of_ne (by rw [hnone]; nofun)
      exact ⟨hl, entry?_put_self hnames' u _, q, hstart, hnames, hkept hresolve⟩
    · rw [ entry?_put_of_ne hkl] at hne ⊢
      obtain ⟨hk, hdirectory, q', hstart', hbegins, hq'⟩ := ih hne
      exact ⟨hk, hdirectory, q', hstart', hbegins, hkept hq'⟩

/-- What is put on the way down from a directory lies on that way. -/
theorem exists_of_ne (h : Makes (p.descend rest) t u) (ht : t.stat p = .ok (b, .directory))
    (hdown : ".." ∉ rest) (hne : u.entry? k ≠ t.entry? k) :
    ∃ i ≤ rest.length, k = b.descend (rest.take i) := by
  obtain ⟨hnone, -, q, hstart, hnames, hresolve⟩ := h.resolve_of_ne hne
  obtain ⟨hp, hb⟩ := stat_eq_ok_iff.1 ht
  obtain ⟨more, hmore⟩ | ⟨first, hfirst⟩ :=
    List.prefix_or_prefix_of_prefix hnames (List.prefix_append p.names rest)
  · -- what leads on to a directory was there, and nothing is put
    have hq : p = q.descend more := by
      rw [Path.descend, hmore, hstart]
      rfl
    rw [hq] at hp
    obtain ⟨-, m, hm, hwalk⟩ := resolve_descend_iff.1 hp
    have hm := resolve_mono (fun _ => h.keeps) hm
    obtain rfl : k = m := Except.ok.inj (hresolve.symm.trans hm)
    rw [directory_of_walk hwalk hb] at hnone
    cases hnone
  · have hq : q = p.descend first := by
      rw [Path.descend, hfirst, ← show q.start = p.start from hstart]
    have hsome : first <+: rest := by
      rw [← hfirst] at hnames
      exact (List.prefix_append_right_inj p.names).1 hnames
    have hp := resolve_mono (fun _ => h.keeps) hp
    rw [hq] at hresolve
    obtain ⟨-, m, hm, hwalk⟩ := resolve_descend_iff.1 hresolve
    obtain rfl : b = m := Except.ok.inj (hp.symm.trans hm)
    refine ⟨first.length, hsome.length_le, ?_⟩
    rw [← List.prefix_iff_eq_take.1 hsome]
    exact ((walk_eq_ok_iff fun hup => hdown (hsome.subset hup)).1 hwalk).1

/-- **Only the way is laid**: where the last directory is there, all on the way are. -/
theorem lays (h : Makes (p.descend rest) t u) (htree : t.IsTree)
    (ht : t.stat p = .ok (b, .directory)) (hdown : ".." ∉ rest)
    (hdone : u.isDirectory (p.descend rest) = true) : Lays b rest t u where
  tree := h.isTree htree
  keeps _ _ := h.keeps
  onWay := (directories_of_isDirectory (stat_mono (fun _ _ => h.keeps) ht) hdown hdone).2
  elsewhere k hk := by
    by_contra hne
    obtain ⟨i, hi, rfl⟩ := h.exists_of_ne ht hdown hne
    exact hk i hi rfl

end Makes

/-! ### Directories that are there -/

/-- A directory that is there cannot be made. -/
theorem makeDirectory_of_isDirectory (h : t.isDirectory p = true) :
    t.makeDirectory p = .error .exists := by
  obtain ⟨l, hresolve, hl⟩ := isDirectory_iff.1 h
  rw [makeDirectory, hresolve]
  dsimp only [bind, Except.bind]
  rw [hl]

/-- The directory that holds a directory is there. -/
theorem isDirectory_parent (h : t.isDirectory p = true) : t.isDirectory p.parent = true := by
  obtain hnil | ⟨names, name, hnames⟩ := p.names.eq_nil_or_concat'
  · rwa [Path.parent, show p.names.dropLast = p.names by rw [hnil]; rfl]
  · have hp : p = p.parent.descend [name] := by
      rw [Path.parent, Path.descend, hnames, List.dropLast_concat, ← hnames]
    rw [hp] at h
    exact isDirectory_of_descend h

theorem pathExists_of_isDirectory (h : t.isDirectory p = true) : t.pathExists p = true := by
  obtain ⟨l, hresolve, hl⟩ := isDirectory_iff.1 h
  rw [pathExists, stat_eq_ok_iff.2 ⟨hresolve, hl⟩]
  rfl

theorem ensureOne_of_isDirectory (h : t.isDirectory p = true) :
    (ensureOne p).run.run t = (.ok (), t) := by
  rw [ensureOne, run_get_bind, makeDirectory_of_isDirectory h]
  dsimp only
  rw [run_get_bind, h]
  rfl

/-- **A directory that is there is left**, and so are those above it. -/
theorem makeFromTop_of_isDirectory (above : Nat) (h : t.isDirectory p = true) :
    (makeFromTop above p).run.run t = (.ok (), t) := by
  cases above with
  | zero => exact ensureOne_of_isDirectory h
  | succ above =>
    rw [makeFromTop, run_get_bind, pathExists_of_isDirectory (isDirectory_parent h), Bool.not_true,
      Bool.and_false, if_neg Bool.false_ne_true]
    exact ensureOne_of_isDirectory h

theorem makeWithParents_of_isDirectory (budget : Nat) (h : t.isDirectory p = true) :
    (makeWithParents (budget + 1) p).run.run t = (.ok (), t) := by
  rw [makeWithParents, run_get_bind, makeDirectory_of_isDirectory h]
  dsimp only
  rw [run_get_bind, h]
  rfl

/-! ### Placing -/

/-- **A directory that can be made is all that is placed.** -/
theorem place_of_makeDirectory (ht : t.IsTree) (h : t.makeDirectory p = .ok u) :
    t.place p .directory = u := by
  obtain ⟨l, hresolve, hnone, rfl⟩ := makeDirectory_eq_ok_iff.1 h
  obtain ⟨k, name, -, -, hk, hparent⟩ := ht.exists_child hresolve (by rw [hnone]; nofun)
  have hmade : (makeWithParents (p.names.length + 1) p.parent).run.run t = (.ok (), t) :=
    makeWithParents_of_isDirectory p.names.length (isDirectory_iff.2 ⟨k, hparent, hk⟩)
  have hnew : t.isDirectory p = false := by
    rw [isDirectory, stat, hresolve]
    dsimp only [bind, Except.bind]
    rw [hnone]
  have hstate : ((makeWithParents (p.names.length + 1) p.parent).run t).2 = t :=
    congrArg Prod.snd hmade
  rw [place, hstate, hresolve]
  dsimp only
  rw [hnew, Bool.and_false, if_neg Bool.false_ne_true]

end LintReport.FileTree
