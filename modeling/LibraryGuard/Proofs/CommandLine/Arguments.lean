import LibraryGuard.CommandLine.Request
import LibraryGuard.Proofs.Config

/-!
# What the arguments of a command give

Every value that is given to a command is of the kind of the option that it is given to (`fits_read`): a value is checked when
it is added, and nothing is taken away later. So a path that an option gives to a request is never empty.
-/

namespace LibraryGuard.CommandLine

/-- Every value that was given to a command is of the kind of one of the command's options, the one that it was given to. -/
def Given.Fits (g : Given) (f : Form) : Prop :=
  ∀ v ∈ g.values, ∃ o ∈ f.options, o.name = v.1 ∧ o.kind.all (·.accepts v.2) = true

namespace Form

variable {f : Form} {g g' : Given}

theorem fits_addValue {o : OptionForm} {value : String} (h : addValue o g value = .ok g') (hg : g.Fits f) (ho : o ∈ f.options) :
    g'.Fits f := by
  unfold addValue at h
  split at h
  next => nomatch h
  next hchecked =>
    obtain rfl := Except.ok.inj h
    have haccepts : o.kind.all (·.accepts value) = true := by simp_all
    intro v hv
    rcases List.mem_cons.1 hv with rfl | hv
    · exact ⟨o, ho, rfl, haccepts⟩
    · exact hg v hv

theorem fits_addArgument {value : String} (h : f.addArgument g value = .ok g') (hg : g.Fits f) : g'.Fits f := by
  unfold addArgument at h
  split at h
  next => nomatch h
  next =>
    obtain rfl := Except.ok.inj h
    exact hg

/-- Behind two dashes, only arguments are added. -/
theorem fits_foldlM {rest : List String} (h : rest.foldlM f.addArgument g = .ok g') (hg : g.Fits f) : g'.Fits f := by
  induction rest generalizing g with
  | nil =>
    obtain rfl := Except.ok.inj h
    exact hg
  | cons a rest ih =>
    rw [List.foldlM_cons] at h
    obtain ⟨g₁, hadd, hrest⟩ := bind_eq_ok_iff.1 h
    exact ih hrest (fits_addArgument hadd hg)

/-- What the arguments of a command give is of the kinds that the command's options take. -/
theorem fits_read {arguments : List String} (h : f.read g arguments = .ok g') (hg : g.Fits f) : g'.Fits f := by
  fun_induction Form.read f g arguments with
  | case1 g =>
    obtain rfl := Except.ok.inj h
    exact hg
  | case2 => exact fits_foldlM h hg
  | case4 g value rest _ ih =>
    obtain ⟨g₁, hadd, hrest⟩ := bind_eq_ok_iff.1 h
    exact ih g₁ hrest (fits_addArgument hadd hg)
  -- A switch, a value attached to its option, and a value in the next argument.
  | case7 g _ _ _ o ho _ _ _ ih | case8 g _ _ _ o ho _ _ _ _ ih | case11 g _ _ o ho _ _ _ _ _ _ ih =>
    obtain ⟨g₁, hadd, hrest⟩ := bind_eq_ok_iff.1 h
    exact ih g₁ hrest (fits_addValue hadd hg (List.mem_of_find?_eq_some ho))
  | case3 | case5 | case6 | case9 | case10 | case12 => nomatch h

end Form

namespace Request

/-- A request comes of a command and of what was given to it, unless there is no command. -/
theorem read_eq_ok {arguments : List String} {r : Request} (h : Request.read arguments = .ok r) :
    r = .probe Config.defaultTarget ∨
      ∃ (v : Verb) (rest : List String) (g : Given), v.form.read {} rest = .ok g ∧ v.request? g = some r := by
  unfold Request.read at h
  split at h
  next => exact Or.inl (Except.ok.inj h).symm
  next => exact Or.inl (Except.ok.inj h).symm
  split at h
  case h_5 =>
    split at h
    next v _ =>
      obtain ⟨g, hg, hr⟩ := bind_eq_ok_iff.1 h
      split at hr
      next r' hr' =>
        obtain rfl := Except.ok.inj hr
        exact Or.inr ⟨v, _, g, hg, hr'⟩
      next => nomatch hr
    next => nomatch h
  all_goals nomatch h

/-- A configuration that is named to a check is named by a path that is not empty. -/
theorem ne_empty_of_read_check {arguments : List String} {shipped path : Path}
    (h : Request.read arguments = .ok (.check shipped (some path))) : path.text ≠ "" := by
  rcases read_eq_ok h with hprobe | ⟨v, rest, g, hread, hrequest⟩
  · nomatch hprobe
  have hfits : g.Fits v.form := Form.fits_read hread nofun
  cases v with
  | check =>
    simp only [Verb.request?, Option.bind_eq_bind, Option.bind_eq_some_iff, pure, Option.some.injEq, Request.check.injEq,
      Option.map_eq_some_iff] at hrequest
    obtain ⟨-, -, -, value, hvalue, rfl⟩ := hrequest
    have hgiven : g.values.lookup "config" = some value := by simpa [Form.value?, Verb.form] using hvalue
    obtain ⟨before, behind, hvalues, -⟩ := List.lookup_eq_some_iff.1 hgiven
    obtain ⟨o, ho, -, haccepts⟩ := hfits ("config", value) (by simp [hvalues])
    -- The one option of a check takes a path.
    obtain rfl := List.mem_singleton.1 ho
    exact of_decide_eq_true haccepts
  | probe | version | dependencies | locate | select => simp [Verb.request?, Option.bind_eq_some_iff] at hrequest

end Request

end LibraryGuard.CommandLine
