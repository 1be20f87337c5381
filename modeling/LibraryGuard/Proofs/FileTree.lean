import LibraryGuard.Proofs.Path.Steps

/-!
# Where a path leads

Following a path is taking one step after the other (`follow_cons`), where a link puts the steps that it holds in front of those
that are left. Steps that stay where they are do not matter on the way to somewhere else (`follow_filter`): two paths with the
same names lead to the same place, or fail in the same way, if both go on with a step that does not stay. A file name that is
joined to a path is such a step (`follow_join`). In a tree in which everything stands in a directory, what can be read is reached
by a file name (`endsIn_of_read`), since the other steps lead to directories.
-/

namespace LibraryGuard.FileTree

variable {t : FileTree} {links links' : Nat} {place place' q : Place} {step : String} {front rest : List String}

/-! ## One step -/

/-- Where one step leads: how many links are left to replace, the place, and the steps to take before the others. -/
def step? (t : FileTree) (links : Nat) (place : Place) (step : String) : Except AccessFault (Nat × Place × List String) :=
  match t.node? place with
  | none => .error .missing
  | some .directory =>
    if step = "." then .ok (links, place, [])
    else if step = ".." then .ok (links, place.dropLast, [])
    else if nameLimit < step.utf8ByteSize then .error .nameTooLong
    else
      match t.node? (place ++ [step]), links with
      | none, _ => .error .missing
      | some (.link _), 0 => .error .tooManyLinks
      | some (.link target), links + 1 => .ok (links, target.start place, target.steps)
      | some _, links => .ok (links, place ++ [step], [])
  | some _ => .error .notDirectory

/-- The first step is taken, and then the others from where it leads. -/
theorem follow_cons (t : FileTree) (links : Nat) (place : Place) (step : String) (rest : List String) :
    t.follow links place (step :: rest) =
      (t.step? links place step).bind fun (links, place, front) => t.follow links place (front ++ rest) := by
  rw [follow.eq_def, step?.eq_def]
  dsimp only
  cases t.node? place with
  | none => rfl
  | some n =>
    cases n with
    | directory =>
      dsimp only
      split_ifs
      · rfl
      · rfl
      · rfl
      · cases t.node? (place ++ [step]) with
        | none => rfl
        | some n => cases n <;> cases links <;> rfl
    | _ => rfl

/-- A step takes one link, or puts nothing in front of the others. -/
theorem step?_links (h : t.step? links place step = .ok (links', place', front)) :
    links' < links ∨ links' = links ∧ front = [] := by
  have hends : ∀ {n : Nat} {p : Place} {steps : List String},
      (.ok (n, p, steps) : Except AccessFault _) = .ok (links', place', front) → n = links' ∧ steps = front := by
    intro n p steps heq
    obtain ⟨hn, hrest⟩ := Prod.mk.inj (Except.ok.inj heq)
    exact ⟨hn, (Prod.mk.inj hrest).2⟩
  simp only [step?] at h
  split at h
  · cases h
  · split_ifs at h
    · exact .inr ⟨(hends h).1.symm, (hends h).2.symm⟩
    · exact .inr ⟨(hends h).1.symm, (hends h).2.symm⟩
    · split at h
      · cases h
      · cases h
      · exact .inl (Nat.lt_succ_of_le (hends h).1.ge)
      · exact .inr ⟨(hends h).1.symm, (hends h).2.symm⟩
  · cases h

/-- A step that stays does so in a directory, and elsewhere every step fails in the same way. -/
theorem step?_point (t : FileTree) (links : Nat) (place : Place) :
    t.step? links place "." = .ok (links, place, []) ∨ ∃ fault, ∀ step, t.step? links place step = .error fault := by
  cases hp : t.node? place with
  | none => exact .inr ⟨.missing, fun step => by simp only [step?, hp]⟩
  | some n =>
    cases n with
    | directory => exact .inl (by simp only [step?, hp, if_pos])
    | _ => exact .inr ⟨.notDirectory, fun step => by simp only [step?, hp]⟩

/-- What a step does to the steps that are left decides where they lead. -/
theorem follow_cons_congr {others : List String}
    (h : ∀ links' place' front, t.step? links place step = .ok (links', place', front) →
      t.follow links' place' (front ++ rest) = t.follow links' place' (front ++ others)) :
    t.follow links place (step :: rest) = t.follow links place (step :: others) := by
  rw [follow_cons, follow_cons]
  cases hstep : t.step? links place step with
  | error fault => rfl
  | ok next => exact h _ _ _ hstep

/-- Steps that stay where they are do not matter if the way goes on. -/
theorem follow_filter (t : FileTree) (links : Nat) (place : Place) (steps : List String) (hrest : rest ≠ []) :
    t.follow links place (steps ++ rest) = t.follow links place (steps.filter (· ≠ ".") ++ rest) := by
  -- A link puts other steps in front, but takes one of the links that are left, so these are what the first induction is on.
  induction links using Nat.strong_induction_on generalizing place steps with
  | _ links ihl =>
    induction steps generalizing place with
    | nil => rfl
    | cons step steps ih =>
      by_cases hpoint : step = "."
      · subst hpoint
        rw [List.filter_cons_of_neg (by simp), ← ih, List.cons_append, follow_cons]
        obtain hstay | ⟨fault, hfault⟩ := step?_point t links place
        · rw [hstay]
          rfl
        · obtain ⟨next, others, hnext⟩ := List.exists_cons_of_ne_nil (List.append_ne_nil_of_right_ne_nil steps hrest)
          rw [hnext, follow_cons, hfault, hfault]
          rfl
      · rw [List.filter_cons_of_pos (by simpa using hpoint), List.cons_append, List.cons_append]
        refine follow_cons_congr fun links' place' front hstep => ?_
        obtain hlt | ⟨rfl, rfl⟩ := step?_links hstep
        · rw [← List.append_assoc, ← List.append_assoc, ihl links' hlt, ihl links' hlt place' (front ++ _)]
          simp
        · exact ih place'

/-- The steps of a path may be replaced by its names if the way goes on. -/
theorem follow_steps (t : FileTree) (links : Nat) (place : Place) (p : Path) (name : String) :
    t.follow links place (p.steps ++ [name]) = t.follow links place (Path.names p.chars ++ [name]) := by
  rw [follow_filter _ _ _ _ (List.cons_ne_nil name []), Path.names_steps]

/-- A file name that is joined to a path is one more step. -/
theorem follow_join {name : String} (h : Path.IsFileName name) (t : FileTree) (links : Nat) (place : Place) (p : Path) :
    t.follow links place (p.join ⟨name⟩).steps = t.follow links place (p.steps ++ [name]) := by
  obtain ⟨before, hends, hnames, -⟩ := Path.endsIn_join h p
  rw [← List.dropLast_append_getLast? name hends.getLast?_steps, follow_filter _ _ _ _ (List.cons_ne_nil name []),
    hends.names_dropLast, hnames, follow_steps]

/-! ## What can be read -/

/-- Everything in the tree stands in a directory. -/
def IsRooted (t : FileTree) : Prop := ∀ place name n, t.node? (place ++ [name]) = some n → t.node? place = some .directory

/-- A tree is rooted if each of its nodes stands in a directory. -/
theorem isRooted_of_forall_mem (h : ∀ entry ∈ t.nodes, t.node? entry.1.dropLast = some .directory) : t.IsRooted := by
  intro place name n hnode
  rw [node?, if_neg (by simp), List.lookup_eq_some_iff] at hnode
  obtain ⟨front, rest, hnodes, -⟩ := hnode
  have hentry := h (place ++ [name], n) (by rw [hnodes]; simp)
  rwa [List.dropLast_concat] at hentry

/-- What is above a directory is a directory. -/
theorem IsRooted.dropLast (h : t.IsRooted) (hplace : t.node? place = some .directory) :
    t.node? place.dropLast = some .directory := by
  obtain rfl | ⟨front, name, rfl⟩ := List.eq_nil_or_concat' place
  · exact hplace
  · rw [List.dropLast_concat]
    exact h front name _ hplace

/-- A step that stays, or goes up, leads to a directory. -/
theorem directory_of_step? (h : t.IsRooted) (hstep : step = "." ∨ step = "..")
    (hok : t.step? links place step = .ok (links', place', front)) : front = [] ∧ t.node? place' = some .directory := by
  simp only [step?] at hok
  split at hok
  · cases hok
  next hplace =>
    obtain rfl | rfl := hstep
    · rw [if_pos rfl] at hok
      obtain ⟨-, rfl, rfl⟩ : links = links' ∧ place = place' ∧ [] = front := by simpa using hok
      exact ⟨rfl, hplace⟩
    · rw [if_neg (by decide), if_pos rfl] at hok
      obtain ⟨-, rfl, rfl⟩ : links = links' ∧ place.dropLast = place' ∧ [] = front := by simpa using hok
      exact ⟨rfl, h.dropLast hplace⟩
  · cases hok

/-- A way whose last step stays, or goes up, leads to a directory. -/
theorem directory_of_follow (h : t.IsRooted) {steps : List String}
    (hlast : steps.getLast? = some "." ∨ steps.getLast? = some "..") (hok : t.follow links place steps = .ok q) :
    t.node? q = some .directory := by
  induction links using Nat.strong_induction_on generalizing place steps with
  | _ links ihl =>
    induction steps generalizing place with
    | nil => simp at hlast
    | cons step rest ih =>
      rw [follow_cons] at hok
      cases hstep : t.step? links place step with
      | error fault =>
        rw [hstep] at hok
        cases hok
      | ok next =>
        obtain ⟨links', place', front⟩ := next
        rw [hstep] at hok
        have hok : t.follow links' place' (front ++ rest) = .ok q := hok
        cases rest with
        | nil =>
          have hend : step = "." ∨ step = ".." := by simpa using hlast
          obtain ⟨rfl, hdirectory⟩ := directory_of_step? h hend hstep
          rw [List.append_nil, follow] at hok
          obtain rfl := Except.ok.inj hok
          exact hdirectory
        | cons next rest =>
          rw [List.getLast?_cons_cons] at hlast
          obtain hlt | ⟨rfl, rfl⟩ := step?_links hstep
          · refine ihl links' hlt ?_ hok
            rwa [List.getLast?_append_of_ne_nil _ (List.cons_ne_nil next rest)]
          · exact ih hlast hok

/-- What can be read is no directory, and a text that is not empty leads to it. -/
theorem follow_of_read {p : Path} {content : Bytes} (h : t.read p = .ok content) :
    p.chars ≠ [] ∧ ∃ q n, t.follow linkLimit (p.start t.here) p.steps = .ok q ∧ t.node? q = some n ∧ n ≠ .directory := by
  have hempty : p.text = "" ↔ p.chars = [] := String.toList_inj.symm
  simp only [read, find, place, bind, Except.bind] at h
  split_ifs at h with hnul hne hlong
  rw [hempty] at hne
  cases hfollow : t.follow linkLimit (p.start t.here) p.steps with
  | error fault =>
    rw [hfollow] at h
    cases h
  | ok q =>
    rw [hfollow] at h
    cases hnode : t.node? q with
    | none =>
      simp only [hnode] at h
      cases h
    | some n =>
      simp only [hnode] at h
      refine ⟨hne, q, n, rfl, hnode, ?_⟩
      rintro rfl
      cases h

/-- What can be read is reached by a file name. -/
theorem endsIn_of_read (h : t.IsRooted) {p : Path} {content : Bytes} (hread : t.read p = .ok content) :
    ∃ before name, p.EndsIn before name := by
  obtain ⟨hne, q, n, hfollow, hnode, hn⟩ := follow_of_read hread
  have hlast : p.steps.getLast? ≠ some "." ∧ p.steps.getLast? ≠ some ".." := by
    rw [← not_or]
    intro hlast
    have hdirectory := directory_of_follow h hlast hfollow
    exact hn (Option.some.inj (hnode.symm.trans hdirectory))
  obtain ⟨before, hfront, hchars⟩ := Path.exists_isFront p.chars
  have hslash := Path.slash_not_mem_afterLastSlash p.chars
  have hname : Path.afterLastSlash p.chars ≠ [] := by
    intro hnil
    rw [hnil, List.append_nil] at hchars
    obtain rfl | ⟨front, rfl⟩ := hfront
    · exact hne hchars
    · exact hlast.1 (Path.getLast?_steps_slash hchars)
  rw [Path.getLast?_steps hchars hfront hname hslash, ne_eq, ne_eq, Option.some.injEq, Option.some.injEq] at hlast
  refine ⟨before, String.ofList (Path.afterLastSlash p.chars), ?_, hfront, ?_, hlast.1, hlast.2, ?_⟩
  · rwa [String.toList_ofList]
  · rwa [ne_eq, ← String.toList_inj, String.toList_ofList]
  · rwa [String.toList_ofList]

end LibraryGuard.FileTree
