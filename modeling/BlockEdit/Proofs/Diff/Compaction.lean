import BlockEdit.Proofs.Diff.Script

/-!
# Scripts that are compacted

A compaction moves one run after another, past its neighbours. Each step leaves runs that follow
one another between the same places: past shared lines (`tiles_up`, `tiles_down`), past a run of the
other kind (`Op.Fits.swap`) and into a run of its own kind (`Op.Fits.join`). So the compacted script
leads from one text to the other, as the script did that was found first (`tiles_compact`).
-/

namespace BlockEdit.Diff

variable {p : Pair} {i j m n k : Nat} {a b c d : Place} {op q run next : Op}
  {before after ops : List Op} {kind : Kind}

/-! ### Runs beside one another -/

/-- Runs of different kinds, one of which deletes and one of which inserts, may change places. -/
theorem Op.Fits.swap (hq : q.kind ≠ .equal) (hrun : run.kind ≠ .equal) (hkind : q.kind ≠ run.kind)
    (h : Tiles (Op.Fits p) a (q :: run :: after) c) :
    Tiles (Op.Fits p) a (run :: q :: after) c := by
  obtain ⟨b, hq', h⟩ := tiles_cons_iff.1 h
  obtain ⟨d, hrun', h⟩ := tiles_cons_iff.1 h
  cases hq' with
  | equal => exact absurd rfl hq
  | delete x hn =>
    cases hrun' with
    | equal => exact absurd rfl hrun
    | delete => exact absurd rfl hkind
    | insert y hm => exact .cons (.insert y hm) (.cons (.delete x hn) h)
  | insert x hn =>
    cases hrun' with
    | equal => exact absurd rfl hrun
    | insert => exact absurd rfl hkind
    | delete y hm => exact .cons (.delete y hm) (.cons (.insert x hn) h)

/-- Runs of one kind are joined. -/
theorem Op.Fits.join (hkind : q.kind = run.kind) (h : Op.Fits p a q b) (h' : Op.Fits p b run c) :
    Op.Fits p a (q.join run) c := by
  cases h with
  | equal hagree hn =>
    cases h' with
    | equal hagree' hm =>
      rw [Nat.add_assoc, Nat.add_assoc]
      exact .equal (hagree.append hagree') (Nat.add_pos_left hn _)
    | delete => cases hkind
    | insert => cases hkind
  | delete x hn =>
    cases h' with
    | delete y hm =>
      rw [Nat.add_assoc]
      exact .delete x (Nat.add_pos_left hn _)
    | equal => cases hkind
    | insert => cases hkind
  | insert x hn =>
    cases h' with
    | insert y hm =>
      rw [Nat.add_assoc]
      exact .insert x (Nat.add_pos_left hn _)
    | equal => cases hkind
    | delete => cases hkind

/-! ### Past shared lines -/

/-- Shared lines that a run has passed stand in front of what is behind. -/
theorem tiles_keepBehind (hk : 0 < k) (hagree : p.Agree i j k) (hq : q.oldStop - k = i)
    (hrun : run.newStop - k = j) (h : Tiles (Op.Fits p) (i + k, j + k) after c) :
    Tiles (Op.Fits p) (i, j) (keepBehind q run k after) c := by
  subst hq hrun
  cases after with
  | nil => exact .cons (.equal hagree hk) h
  | cons next rest =>
    rw [keepBehind]
    split
    · next hnext =>
      obtain ⟨b, hfits, h⟩ := tiles_cons_iff.1 h
      cases hfits with
      | @equal _ _ n hagree' hn =>
        have hjoined := Op.Fits.equal (hagree.append hagree') (Nat.add_pos_left hk n)
        refine .cons ?_ h
        simp only [Op.equal, Op.shiftBack, Op.grow, Nat.add_sub_cancel] at hjoined ⊢
        rwa [Nat.add_assoc, Nat.add_assoc, Nat.add_comm n k]
      | delete => cases hnext
      | insert => cases hnext
    · exact .cons (.equal hagree hk) h

/-- Shared lines that a run has passed stand behind what is in front. -/
theorem tiles_keepAhead (hk : 0 < k) (hagree : p.Agree i j k) (hq : q.oldStart = i)
    (hrun : run.newStart = j) (h : Tiles (Op.Fits p) a before.reverse (i, j)) :
    Tiles (Op.Fits p) a (keepAhead q run k before).reverse (i + k, j + k) := by
  have hkept : Op.equal q.oldStart run.newStart k = Op.equal i j k := by rw [hq, hrun]
  cases before with
  | nil =>
    rw [keepAhead, hkept]
    exact .append h (tiles_singleton_iff.2 (.equal hagree hk))
  | cons last rest =>
    rw [keepAhead]
    split
    · next hlast =>
      rw [List.reverse_cons] at h ⊢
      obtain ⟨b, hrest, hfits⟩ := tiles_append_iff.1 h
      refine .append hrest (tiles_singleton_iff.2 ?_)
      cases tiles_singleton_iff.1 hfits with
      | @equal i' j' n hagree' hn =>
        have hjoined := Op.Fits.equal (hagree'.append hagree) (Nat.add_pos_left hn k)
        rwa [← Nat.add_assoc, ← Nat.add_assoc] at hjoined
      | delete => cases hlast
      | insert => cases hlast
    · rw [List.reverse_cons, hkept]
      exact .append h (tiles_singleton_iff.2 (.equal hagree hk))

/-- A deletion has no new lines that could be passed. -/
theorem slackUp_delete : p.slackUp q (.delete i n k) = 0 := by
  simp [Pair.slackUp, Op.delete, Pair.sharedBehind]

theorem slackDown_delete : p.slackDown q (.delete i n k) = 0 := by
  simp [Pair.slackDown, Op.delete, Pair.sharedAhead]

/-- A run moves up past the last lines of the shared run in front of it. -/
theorem tiles_up (hq : q.kind = .equal) (hrun : run.kind ≠ .equal) (hk : p.slackUp q run ≠ 0)
    (h : Tiles (Op.Fits p) a (q :: run :: after) c) :
    Tiles (Op.Fits p) a
      ((if q.oldSize = p.slackUp q run then [] else [q.dropLast (p.slackUp q run)]) ++
      run.shiftBack (p.slackUp q run) :: keepBehind q run (p.slackUp q run) after) c := by
  obtain ⟨b, hq', h⟩ := tiles_cons_iff.1 h
  obtain ⟨d, hrun', h⟩ := tiles_cons_iff.1 h
  cases hq' with
  | delete => cases hq
  | insert => cases hq
  | @equal i j n hagree hn =>
    cases hrun' with
    | equal => exact absurd rfl hrun
    | delete => exact absurd slackUp_delete hk
    | @insert _ _ m x hm =>
      have hle : p.slackUp (.equal i j n) (.insert x (j + n) m) ≤ min n m := p.sharedBehind_le ..
      have hpassed : p.Agree (i + n - p.slackUp (.equal i j n) (.insert x (j + n) m))
          (j + n + m - p.slackUp (.equal i j n) (.insert x (j + n) m))
          (p.slackUp (.equal i j n) (.insert x (j + n) m)) :=
        Pair.agree_sharedBehind (i := i + n) (j := j + n + m) (n := min n m) (by omega) (by omega)
      generalize p.slackUp (.equal i j n) (.insert x (j + n) m) = k at hk hle hpassed ⊢
      have hmoved : Op.Fits p (i + n - k, j + n - k) ((Op.insert x (j + n) m).shiftBack k)
          (i + n - k, j + n - k + m) := .insert (x - k) hm
      have hbehind : Tiles (Op.Fits p) (i + n - k, j + n - k + m)
          (keepBehind (.equal i j n) (.insert x (j + n) m) k after) c := by
        rw [show j + n - k + m = j + n + m - k by omega]
        refine tiles_keepBehind (Nat.pos_of_ne_zero hk) hpassed rfl rfl ?_
        rwa [Nat.sub_add_cancel (by omega), Nat.sub_add_cancel (by omega)]
      refine .append ?_ (.cons hmoved hbehind)
      split
      · next hall =>
        rw [show i + n - k = i by simp only [Op.equal] at hall; omega,
          show j + n - k = j by simp only [Op.equal] at hall; omega]
        exact .nil _
      · next hsome =>
        have hlt : k < n := by simp only [Op.equal] at hsome; omega
        have hkept := Op.Fits.equal (hagree.first (Nat.sub_le n k)) (Nat.sub_pos_of_lt hlt)
        rw [show i + (n - k) = i + n - k by omega, show j + (n - k) = j + n - k by omega] at hkept
        exact tiles_singleton_iff.2 hkept

/-- A run moves down past the first lines of the shared run behind it. -/
theorem tiles_down (hq : q.kind = .equal) (hrun : run.kind ≠ .equal) (hk : p.slackDown q run ≠ 0)
    (hbefore : Tiles (Op.Fits p) a before.reverse b)
    (h : Tiles (Op.Fits p) b (run :: q :: after) c) :
    Tiles (Op.Fits p) a ((keepAhead q run (p.slackDown q run) before).reverse ++
      run.shiftOn (p.slackDown q run) :: ((if q.oldSize = p.slackDown q run then [] else
        [(q.shiftOn (p.slackDown q run)).dropLast (p.slackDown q run)]) ++ after)) c := by
  obtain ⟨d, hrun', h⟩ := tiles_cons_iff.1 h
  obtain ⟨e, hq', h⟩ := tiles_cons_iff.1 h
  cases hrun' with
  | equal => exact absurd rfl hrun
  | delete => exact absurd slackDown_delete hk
  | @insert i j m x hm =>
    cases hq' with
    | delete => cases hq
    | insert => cases hq
    | @equal _ _ n hagree hn =>
      have hle : p.slackDown (.equal i (j + m) n) (.insert x j m) ≤ min n m := p.sharedAhead_le ..
      have hpassed : p.Agree i j (p.slackDown (.equal i (j + m) n) (.insert x j m)) :=
        Pair.agree_sharedAhead p _ _ _
      generalize p.slackDown (.equal i (j + m) n) (.insert x j m) = k at hk hle hpassed ⊢
      have hmoved : Op.Fits p (i + k, j + k) ((Op.insert x j m).shiftOn k)
          (i + k, j + k + m) := .insert (x + k) hm
      refine .append (tiles_keepAhead (Nat.pos_of_ne_zero hk) hpassed rfl rfl hbefore)
        (.cons hmoved (.append ?_ h))
      split
      · next hall =>
        rw [show n = k from hall, Nat.add_right_comm j m k]
        exact .nil _
      · next hsome =>
        have hlt : k < n := by simp only [Op.equal] at hsome; omega
        have hrest := Pair.Agree.last (m := k) (n := n - k)
          (by rwa [Nat.add_sub_cancel' (by omega)])
        have hkept := Op.Fits.equal hrest (Nat.sub_pos_of_lt hlt)
        rw [show i + k + (n - k) = i + n by omega, show j + m + k + (n - k) = j + m + n by omega]
          at hkept
        rw [Nat.add_right_comm j k m]
        exact tiles_singleton_iff.2 hkept

/-! ### All moves -/

/-- The script that a run was picked out of. -/
def Pick.script (pick : Pick) : List Op := pick.before.reverse ++ pick.run :: pick.after

theorem tiles_moveUp (hrun : run.kind ≠ .equal)
    (h : Tiles (Op.Fits p) a (before.reverse ++ run :: after) c) :
    Tiles (Op.Fits p) a (p.moveUp before run after).script c ∧
      (p.moveUp before run after).run.kind = run.kind := by
  fun_induction p.moveUp before run after with
  | case1 run after => exact ⟨h, rfl⟩
  | case2 run after q rest hq k hk => exact ⟨h, rfl⟩
  | case3 run after q rest hq k hk behind hall ih =>
    refine ih hrun ?_
    rw [List.reverse_cons, List.append_assoc] at h
    refine h.exchange fun b h => ?_
    have hup := tiles_up hq hrun hk h
    rwa [if_pos hall] at hup
  | case4 run after q rest hq k hk behind hsome ih =>
    refine ih hrun ?_
    rw [List.reverse_cons, List.append_assoc] at h ⊢
    refine h.exchange fun b h => ?_
    have hup := tiles_up hq hrun hk h
    rwa [if_neg hsome] at hup
  | case5 run after q rest hq hkind ih =>
    rw [← hkind]
    refine ih hq ?_
    rw [List.reverse_cons, List.append_assoc] at h
    refine h.exchange fun b h => ?_
    obtain ⟨d, hfits, h⟩ := tiles_cons_iff.1 h
    obtain ⟨e, hfits', h⟩ := tiles_cons_iff.1 h
    exact .cons (hfits.join hkind hfits') h
  | case6 run after q rest hq hkind ih =>
    refine ih hrun ?_
    rw [List.reverse_cons, List.append_assoc] at h
    exact h.exchange fun b h => Op.Fits.swap hq hrun hkind h

theorem tiles_moveDown (hrun : run.kind ≠ .equal)
    (h : Tiles (Op.Fits p) a (before.reverse ++ run :: after) c) :
    Tiles (Op.Fits p) a (p.moveDown before run after).script c := by
  fun_induction p.moveDown before run after with
  | case1 before run => exact h
  | case2 before run q rest hq k hk => exact h
  | case3 before run q rest hq k hk ahead hall ih =>
    refine ih hrun ?_
    obtain ⟨b, hbefore, h⟩ := tiles_append_iff.1 h
    have hdown := tiles_down hq hrun hk hbefore h
    rwa [if_pos hall] at hdown
  | case4 before run q rest hq k hk ahead hsome ih =>
    refine ih hrun ?_
    obtain ⟨b, hbefore, h⟩ := tiles_append_iff.1 h
    have hdown := tiles_down hq hrun hk hbefore h
    rwa [if_neg hsome] at hdown
  | case5 before run q rest hq hkind ih =>
    refine ih (by exact hrun) (h.exchange fun b h => ?_)
    obtain ⟨d, hfits, h⟩ := tiles_cons_iff.1 h
    obtain ⟨e, hfits', h⟩ := tiles_cons_iff.1 h
    exact .cons (hfits.join hkind.symm hfits') h
  | case6 before run q rest hq hkind ih =>
    refine ih hrun ?_
    rw [List.reverse_cons, List.append_assoc]
    exact h.exchange fun b h => Op.Fits.swap hrun hq (Ne.symm hkind) h

theorem tiles_settle (hkind : kind ≠ .equal) (fuel : Nat)
    (h : Tiles (Op.Fits p) a (before.reverse ++ after) c) :
    Tiles (Op.Fits p) a (p.settle kind fuel before after) c := by
  induction fuel generalizing before after with
  | zero => exact h
  | succ fuel ih =>
    cases after with
    | nil =>
      rw [List.append_nil] at h
      exact h
    | cons op after =>
      rw [Pair.settle]
      split
      · next hop =>
        obtain ⟨hup, hrun⟩ := tiles_moveUp (by rwa [hop]) h
        have hdown := tiles_moveDown (by rwa [hrun, hop]) hup
        refine ih ?_
        rwa [List.reverse_cons, List.append_assoc]
      · refine ih ?_
        rwa [List.reverse_cons, List.append_assoc]

/-- A compacted script leads where the script led. -/
theorem tiles_compact (h : Tiles (Op.Fits p) a ops c) : Tiles (Op.Fits p) a (p.compact ops) c :=
  tiles_settle (by simp) _ (tiles_settle (by simp) _ h)

end BlockEdit.Diff
