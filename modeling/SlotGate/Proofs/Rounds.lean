import SlotGate.Proofs.Aloof

/-!
# When and with what a sequence of sets fires

A set fires as soon as every slot was supplied since the gate was last empty, and hands over what was
supplied last. On a one-shot gate a fire empties the slots, so the sets fall into rounds: the shortest
runs of sets, one after the other, that supply every slot.
-/
namespace SlotGate

variable {σ : Signature}

/-- A value for a slot. -/
structure Supply (σ : Signature) where
  slot : Fin σ.arity
  value : (σ.type slot).Carrier

namespace Supply

/-- The set of this value. -/
def set (x : Supply σ) : Operation σ := .set x.slot x.value

/-- Some set supplies each slot. -/
def Covers (l : List (Supply σ)) : Prop := ∀ i, ∃ x ∈ l, x.slot = i

/-- The last value for the slot `i` is `v`. -/
def Last (l : List (Supply σ)) (i : Fin σ.arity) (v : (σ.type i).Carrier) : Prop :=
  ∃ before after, l = before ++ ⟨i, v⟩ :: after ∧ ∀ x ∈ after, x.slot ≠ i

/-- The arguments that are the last values, a null one counting as the default. -/
def Hands (l : List (Supply σ)) (args : σ.Arguments) : Prop :=
  ∀ i, ∃ v, Last l i v ∧ args i = (σ.type i).stored v

/-- A shortest sequence of sets that supplies every slot. -/
structure IsRound (l : List (Supply σ)) : Prop where
  covers : Covers l
  shortest : ∀ p, p <+: l → Covers p → p = l

/-- The sets are cut into rounds, from the first on, and `rest` that is no round yet. -/
structure Cut (sets : List (Supply σ)) (rounds : List (List (Supply σ))) (rest : List (Supply σ)) :
    Prop where
  whole : sets = rounds.flatten ++ rest
  rounds : ∀ l ∈ rounds, IsRound l
  rest : ¬ Covers rest

/-- The slots of an empty gate after these sets. -/
def slots (l : List (Supply σ)) : Slots σ :=
  l.foldl (fun s x => s.put x.slot (.filled ((σ.type x.slot).stored x.value))) .vacant

theorem slots_concat (l : List (Supply σ)) (x : Supply σ) :
    slots (l ++ [x]) = (slots l).put x.slot (.filled ((σ.type x.slot).stored x.value)) := by
  simp [slots]

theorem slots_isSet_iff (l : List (Supply σ)) (i : Fin σ.arity) :
    (slots l i).isSet = true ↔ ∃ x ∈ l, x.slot = i := by
  induction l using List.reverseRecOn with
  | nil => simp [slots, Slots.vacant, Slot.vacant]
  | append_singleton l x ih =>
    rw [slots_concat]
    by_cases hi : i = x.slot
    · subst hi
      simp [Slot.filled]
    · rw [Slots.put_other _ hi, ih]
      simp [Ne.symm hi]

theorem allSet_slots_iff (l : List (Supply σ)) : (slots l).allSet = true ↔ Covers l := by
  rw [Slots.allSet_eq_true_iff]
  exact forall_congr' (slots_isSet_iff l)

theorem slots_of_last {l : List (Supply σ)} {i : Fin σ.arity} {v : (σ.type i).Carrier}
    (h : Last l i v) : slots l i = .filled ((σ.type i).stored v) := by
  obtain ⟨before, after, rfl, hafter⟩ := h
  induction after using List.reverseRecOn with
  | nil =>
    rw [slots_concat]
    exact Slots.put_same _ _ _
  | append_singleton after x ih =>
    have hx := hafter x (by simp)
    rw [← List.cons_append, ← List.append_assoc, slots_concat, Slots.put_other _ (Ne.symm hx)]
    exact ih fun y hy => hafter y (List.mem_append_left _ hy)

theorem exists_last {l : List (Supply σ)} {i : Fin σ.arity} (h : ∃ x ∈ l, x.slot = i) :
    ∃ v, Last l i v := by
  induction l using List.reverseRecOn with
  | nil => simp at h
  | append_singleton l x ih =>
    by_cases hi : x.slot = i
    · subst hi
      exact ⟨x.value, l, [], rfl, by simp⟩
    · obtain ⟨v, before, after, rfl, hafter⟩ := ih (by simpa [hi] using h)
      refine ⟨v, before, after ++ [x], by simp, fun y hy => ?_⟩
      rcases List.mem_append.1 hy with hy | hy
      · exact hafter y hy
      · exact List.mem_singleton.1 hy ▸ hi

/-- Where every slot is supplied, the slots hold the last values. -/
theorem hands_slots {l : List (Supply σ)} (h : Covers l) : Hands l (slots l).arguments := by
  intro i
  obtain ⟨v, hv⟩ := exists_last (h i)
  exact ⟨v, hv, congrArg Slot.value (slots_of_last hv)⟩

theorem Covers.mono {l l' : List (Supply σ)} (h : Covers l) (hl : l ⊆ l') : Covers l' := by
  intro i
  obtain ⟨x, hx, hi⟩ := h i
  exact ⟨x, hl hx, hi⟩

theorem Covers.ne_nil {l : List (Supply σ)} (h : Covers l) : l ≠ [] := by
  rintro rfl
  obtain ⟨x, hx, -⟩ := h ⟨0, σ.arity_pos⟩
  cases hx

theorem isRound_concat_iff {l : List (Supply σ)} {x : Supply σ} :
    IsRound (l ++ [x]) ↔ Covers (l ++ [x]) ∧ ¬ Covers l := by
  constructor
  · intro h
    refine ⟨h.covers, fun hl => ?_⟩
    have hsame := h.shortest l (List.prefix_append l [x]) hl
    exact absurd (congrArg List.length hsame) (by simp)
  · rintro ⟨hcovers, hnot⟩
    refine ⟨hcovers, fun p hp hpcovers => ?_⟩
    rcases List.prefix_concat_iff.1 hp with rfl | hp
    · rfl
    · exact absurd (hpcovers.mono hp.subset) hnot

namespace Cut

variable {sets rest rest' : List (Supply σ)} {rounds rounds' : List (List (Supply σ))}

theorem nil : Cut ([] : List (Supply σ)) [] [] :=
  ⟨rfl, List.forall_mem_nil _, fun h => h.ne_nil rfl⟩

/-- A set that covers with the open round ends it. -/
theorem close (h : Cut sets rounds rest) {x : Supply σ} (hx : Covers (rest ++ [x])) :
    Cut (sets ++ [x]) (rounds ++ [rest ++ [x]]) [] := by
  refine ⟨by simp [h.whole], fun l hl => ?_, fun h => h.ne_nil rfl⟩
  rcases List.mem_append.1 hl with hl | hl
  · exact h.rounds l hl
  · obtain rfl := List.mem_singleton.1 hl
    exact isRound_concat_iff.2 ⟨hx, h.rest⟩

theorem extend (h : Cut sets rounds rest) {x : Supply σ} (hx : ¬ Covers (rest ++ [x])) :
    Cut (sets ++ [x]) rounds (rest ++ [x]) :=
  ⟨by rw [h.whole, List.append_assoc], h.rounds, hx⟩

/-- The last set is in the open round, or it has ended one. -/
theorem of_concat {x : Supply σ} (h : Cut (sets ++ [x]) rounds rest) :
    (∃ rest', rest = rest' ++ [x] ∧ Cut sets rounds rest') ∨
      ∃ earlier round, rounds = earlier ++ [round ++ [x]] ∧ rest = [] ∧ Cut sets earlier round := by
  rcases List.eq_nil_or_concat rest with rfl | ⟨rest', y, rfl⟩
  · rcases List.eq_nil_or_concat rounds with rfl | ⟨earlier, l, rfl⟩
    · exact absurd h.whole (by simp)
    · have hl : IsRound l := h.rounds l (by simp)
      rcases List.eq_nil_or_concat l with rfl | ⟨round, y, rfl⟩
      · exact absurd rfl hl.covers.ne_nil
      · have hwhole : sets ++ [x] = earlier.flatten ++ round ++ [y] := by simpa using h.whole
        obtain ⟨hsets, hy⟩ := List.append_inj' hwhole rfl
        obtain rfl := (List.cons.inj hy).1
        rw [List.concat_eq_append] at hl
        refine .inr ⟨earlier, round, by simp, rfl, hsets, fun l hl => ?_, ?_⟩
        · exact h.rounds l (by simp [hl])
        · exact (isRound_concat_iff.1 hl).2
  · have hwhole : sets ++ [x] = rounds.flatten ++ rest' ++ [y] := by simpa using h.whole
    obtain ⟨hsets, hy⟩ := List.append_inj' hwhole rfl
    obtain rfl := (List.cons.inj hy).1
    refine .inl ⟨rest', by simp, hsets, h.rounds, fun hcovers => h.rest ?_⟩
    exact hcovers.mono (by simp)

theorem eq_nil (h : Cut ([] : List (Supply σ)) rounds rest) : rounds = [] ∧ rest = [] := by
  obtain ⟨hflatten, hrest⟩ := List.append_eq_nil_iff.1 h.whole.symm
  refine ⟨List.eq_nil_iff_forall_not_mem.2 fun l hl => ?_, hrest⟩
  exact (h.rounds l hl).covers.ne_nil (List.flatten_eq_nil_iff.1 hflatten l hl)

/-- There is one way to cut a sequence of sets. -/
theorem unique (h : Cut sets rounds rest) (h' : Cut sets rounds' rest') :
    rounds' = rounds ∧ rest' = rest := by
  induction sets using List.reverseRecOn generalizing rounds rest rounds' rest' with
  | nil =>
    obtain ⟨rfl, rfl⟩ := h.eq_nil
    exact h'.eq_nil
  | append_singleton sets x ih =>
    have hcovers {earlier : List (List (Supply σ))} {round : List (Supply σ)}
        (h : Cut (sets ++ [x]) (earlier ++ [round ++ [x]]) []) : Covers (round ++ [x]) :=
      (h.rounds _ (by simp)).covers
    rcases h.of_concat with ⟨l, rfl, hl⟩ | ⟨earlier, round, rfl, rfl, hl⟩ <;>
      rcases h'.of_concat with ⟨l', rfl, hl'⟩ | ⟨earlier', round', rfl, rfl, hl'⟩ <;>
      obtain ⟨rfl, rfl⟩ := ih hl hl'
    · exact ⟨rfl, rfl⟩
    · exact absurd (hcovers h') h.rest
    · exact absurd (hcovers h) h'.rest
    · exact ⟨rfl, rfl⟩

end Cut

theorem exists_cut (sets : List (Supply σ)) : ∃ rounds rest, Cut sets rounds rest := by
  induction sets using List.reverseRecOn with
  | nil => exact ⟨[], [], .nil⟩
  | append_singleton sets x ih =>
    obtain ⟨rounds, rest, h⟩ := ih
    by_cases hx : Covers (rest ++ [x])
    · exact ⟨_, _, h.close hx⟩
    · exact ⟨_, _, h.extend hx⟩

/-- The sets up to some point are cut in the same way. -/
theorem Cut.take {sets later rest : List (Supply σ)} {rounds : List (List (Supply σ))}
    (h : Cut (sets ++ later) rounds rest) :
    ∃ earlier more rest', rounds = earlier ++ more ∧ Cut sets earlier rest' := by
  induction later using List.reverseRecOn generalizing rounds rest with
  | nil => exact ⟨rounds, [], rest, (List.append_nil _).symm, by rwa [List.append_nil] at h⟩
  | append_singleton later x ih =>
    rw [← List.append_assoc] at h
    rcases h.of_concat with ⟨l, -, hl⟩ | ⟨rounds', round, rfl, -, hl⟩
    · exact ih hl
    · obtain ⟨earlier, more, rest', rfl, hcut⟩ := ih hl
      exact ⟨earlier, more ++ [round ++ [x]], rest', by simp, hcut⟩

end Supply

/-- The set called the delegate with the last values of `sets`. -/
def Report.Fires (rep : Report σ) (d : Delegate σ) (sets : List (Supply σ)) : Prop :=
  ∃ args, rep.Calls d args ∧ Supply.Hands sets args

/-- When the sets fire whose reports are `reps`, and with what. -/
structure Gate.FiresOn (g : Gate σ (Delegate σ)) (d : Delegate σ) (sets : List (Supply σ))
    (reps : List (Report σ)) : Prop where
  /-- If the slots are kept, a set fires once every slot was supplied. -/
  lasting : g.settings.oneShot = false → ∀ pre x post, sets = pre ++ x :: post →
    ∃ rep, reps[pre.length]? = some rep ∧
      (Supply.Covers (pre ++ [x]) → rep.Fires d (pre ++ [x])) ∧
      (¬ Supply.Covers (pre ++ [x]) → rep.Answers (.flag false))
  /-- A one-shot gate fires at the end of each round. -/
  oneShot : g.settings.oneShot = true → ∃ rounds rest, Supply.Cut sets rounds rest ∧
    (∀ rounds' rest', Supply.Cut sets rounds' rest' → rounds' = rounds ∧ rest' = rest) ∧
    ∀ pre x post, sets = pre ++ x :: post → ∃ rep, reps[pre.length]? = some rep ∧
      (∀ earlier round later, rounds = earlier ++ round :: later →
        pre ++ [x] = (earlier ++ [round]).flatten → rep.Fires d round) ∧
      ((∀ earlier round later, rounds = earlier ++ round :: later →
        pre ++ [x] ≠ (earlier ++ [round]).flatten) → rep.Answers (.flag false))
  /-- If each slot is set once, the last set alone fires, in whatever order they come. -/
  permuted : ∀ (v : σ.Arguments) (order : List (Fin σ.arity)), order.Perm σ.positions →
    sets = order.map (fun i => ⟨i, v i⟩) → ∀ pre x post, sets = pre ++ x :: post →
      ∃ rep, reps[pre.length]? = some rep ∧
        (post = [] → rep.Calls d fun i => (σ.type i).stored (v i)) ∧
        (post ≠ [] → rep.Answers (.flag false))

namespace Supply

/-- While a slot is still to be set, and each is set once, the slots are not covered. -/
theorem not_covers_of_nodup {l rest : List (Supply σ)} (h : ((l ++ rest).map slot).Nodup)
    {x : Supply σ} (hx : x ∈ rest) : ¬ Covers l := by
  intro hcovers
  obtain ⟨y, hy, hyx⟩ := hcovers x.slot
  rw [List.map_append] at h
  exact (List.nodup_append.1 h).2.2 _ (List.mem_map_of_mem hy) _ (List.mem_map_of_mem hx) hyx

/-- The last value for a slot is among the values for it. -/
theorem Hands.eq_stored {l : List (Supply σ)} {args v : σ.Arguments} (h : Hands l args)
    (hv : ∀ x ∈ l, x.value = v x.slot) : args = fun i => (σ.type i).stored (v i) := by
  funext i
  obtain ⟨w, ⟨before, after, rfl, -⟩, hw⟩ := h i
  have hvalue : w = v i := hv ⟨i, w⟩ (by simp)
  rw [hw, hvalue]

/-- A set ends a round of a sequence just if it covers with the open round before it. -/
theorem Cut.ends_round {pre post rest standing : List (Supply σ)} {x : Supply σ}
    {rounds before : List (List (Supply σ))} (h : Cut (pre ++ x :: post) rounds rest)
    (hpre : Cut pre before standing) {round : List (Supply σ)} :
    (∃ earlier later, rounds = earlier ++ round :: later ∧ pre ++ [x] = (earlier ++ [round]).flatten) ↔
      Covers (standing ++ [x]) ∧ round = standing ++ [x] := by
  constructor
  · rintro ⟨earlier, later, rfl, hflatten⟩
    have hcut : Cut (pre ++ [x]) (earlier ++ [round]) [] := by
      refine ⟨by rw [hflatten, List.append_nil], fun l hl => h.rounds l ?_, fun hc => hc.ne_nil rfl⟩
      rcases List.mem_append.1 hl with hl | hl
      · exact List.mem_append_left _ hl
      · exact List.mem_append_right _ (List.mem_singleton.1 hl ▸ List.mem_cons_self)
    rcases hcut.of_concat with ⟨rest', he, -⟩ | ⟨earlier', round', he, -, hcut'⟩
    · simp at he
    · obtain ⟨-, hround⟩ := List.append_inj' he rfl
      obtain rfl := (List.cons.inj hround).1
      obtain ⟨-, rfl⟩ := hpre.unique hcut'
      exact ⟨(hcut.rounds _ (by simp)).covers, rfl⟩
  · rintro ⟨hcovers, rfl⟩
    have hclosed := hpre.close hcovers
    have h' : Cut (pre ++ [x] ++ post) rounds rest := by rwa [List.append_assoc]
    obtain ⟨earlier, more, rest', rfl, hcut⟩ := h'.take
    obtain ⟨rfl, -⟩ := hclosed.unique hcut
    refine ⟨before, more, by simp, ?_⟩
    have hwhole := hclosed.whole
    rwa [List.append_nil] at hwhole

end Supply

namespace Run

variable {g : Gate σ (Delegate σ)} {d : Delegate σ}

/-- The slots of an enabled gate hold what `sets` supplied since they were last empty. -/
structure Supplied (d : Delegate σ) (sets : List (Supply σ)) (r : Run σ) : Prop where
  secluded : r.Secluded d
  enabled : r.state.enabled = true
  slots : r.state.slots = Supply.slots sets

/-- A set that attempts to fire does so if it supplies the last slot that was missing. -/
theorem Supplied.set (hb : g.isBound = true) (hd : d.Aloof) {sets : List (Supply σ)} {r : Run σ}
    (h : r.Supplied d sets) {x : Supply σ}
    (hx : (σ.type x.slot).isNull x.value = false ∨ g.settings.nullPolicy = .fire) :
    let rep := report r (perform g r x.set)
    Supply.Covers (sets ++ [x]) ∧ rep.Fires d (sets ++ [x]) ∧
        Supplied d (if g.settings.oneShot then [] else sets ++ [x]) (perform g r x.set) ∨
      ¬ Supply.Covers (sets ++ [x]) ∧ rep.Answers (.flag false) ∧
        Supplied d (sets ++ [x]) (perform g r x.set) := by
  intro rep
  obtain ⟨a, new, s, e, hpassage, hshown, hstate, hsecluded⟩ :=
    perform_secluded (g := g) hd h.secluded x.set
  have hattempts : x.set.attempts g r.state = true := by
    rcases hx with hx | hx <;> simp [Supply.set, Operation.attempts, h.enabled, hx]
  let q := x.set.entered r.state
  have hslots : q.slots = Supply.slots (sets ++ [x]) := by
    rw [Supply.slots_concat, ← h.slots]
    simp [q, Supply.set, Operation.entered, Operation.opening, h.enabled, Change.apply]
  have henabled : q.enabled = true := by
    simp [q, Supply.set, Operation.entered, Operation.opening, h.enabled, Change.apply]
  have hcovers := Supply.allSet_slots_iff (sets ++ [x])
  rw [← hslots] at hcovers
  cases hpassage with
  | answers opens no => exact absurd (no.symm.trans hattempts) Bool.false_ne_true
  | attempts yes attempt =>
    cases attempt with
    | refused disabled => exact absurd (disabled.symm.trans henabled) Bool.false_ne_true
    | unbound enabled unbound => exact absurd (unbound.symm.trans hb) Bool.false_ne_true
    | pending enabled bound incomplete =>
      have hnot : ¬ Supply.Covers (sets ++ [x]) := fun hc =>
        absurd (incomplete.symm.trans (hcovers.2 hc)) Bool.false_ne_true
      exact .inr ⟨hnot, hshown, hsecluded, hstate ▸ henabled, hstate ▸ hslots⟩
    | fires enabled bound complete lasting =>
      have hc := hcovers.1 complete
      rw [lasting]
      refine .inl ⟨hc, ⟨_, hshown, ?_⟩, hsecluded, hstate ▸ henabled, hstate ▸ hslots⟩
      exact hslots ▸ Supply.hands_slots hc
    | consumes enabled bound complete oneShot =>
      have hc := hcovers.1 complete
      rw [oneShot]
      refine .inl ⟨hc, ⟨_, hshown, ?_⟩, hsecluded, ?_, ?_⟩
      · exact hslots ▸ Supply.hands_slots hc
      · rw [hstate, State.vacateAll_enabled]
        exact henabled
      · rw [hstate, State.vacateAll, if_pos enabled]
        rfl

/-- After `sets`, the slots hold what `standing` supplied: all sets, or on a one-shot gate those of the
round that is not at its end. -/
def Stands (g : Gate σ (Delegate σ)) (sets standing : List (Supply σ)) : Prop :=
  if g.settings.oneShot then ∃ rounds, Supply.Cut sets rounds standing else standing = sets

section

variable (hg : g.delegate = some d) (hd : d.Aloof) (henabled : g.settings.enabled = true)
  (dispatch : Dispatch)

include hg hd henabled

theorem supplied_performAll {sets standing : List (Supply σ)}
    (hx : ∀ x ∈ sets, (σ.type x.slot).isNull x.value = false ∨ g.settings.nullPolicy = .fire)
    (h : Stands g sets standing) :
    (performAll g (start g [] dispatch) (sets.map Supply.set)).Supplied d standing := by
  have hb : g.isBound = true := by simp [Gate.isBound, hg]
  induction sets using List.reverseRecOn generalizing standing with
  | nil =>
    have hnil : standing = [] := by
      unfold Stands at h
      split at h
      · obtain ⟨rounds, hcut⟩ := h
        exact hcut.eq_nil.2
      · exact h
    have hsecluded := secluded_start g dispatch
    rw [hg] at hsecluded
    subst hnil
    exact ⟨hsecluded, henabled, rfl⟩
  | append_singleton sets x ih =>
    have hsets := fun y hy => hx y (List.mem_append_left _ hy)
    have hlast := hx x (by simp)
    have hperform : performAll g (start g [] dispatch) ((sets ++ [x]).map Supply.set) =
        perform g (performAll g (start g [] dispatch) (sets.map Supply.set)) x.set := by
      simp [performAll]
    rw [hperform]
    cases ho : g.settings.oneShot with
    | false =>
      simp only [Stands, ho, Bool.false_eq_true, if_false] at h ih
      subst h
      rcases (ih hsets rfl).set hb hd hlast with ⟨-, -, hafter⟩ | ⟨-, -, hafter⟩
      · rw [ho] at hafter
        exact hafter
      · exact hafter
    | true =>
      simp only [Stands, ho, if_true] at h ih
      obtain ⟨rounds, hcut⟩ := h
      rcases hcut.of_concat with ⟨rest, rfl, hrest⟩ | ⟨earlier, round, rfl, rfl, hround⟩
      · rcases (ih hsets ⟨_, hrest⟩).set hb hd hlast with ⟨hcovers, -, -⟩ | ⟨-, -, hafter⟩
        · exact absurd hcovers hcut.rest
        · exact hafter
      · rcases (ih hsets ⟨_, hround⟩).set hb hd hlast with ⟨-, -, hafter⟩ | ⟨hnot, -, -⟩
        · rw [ho] at hafter
          exact hafter
        · exact absurd (hcut.rounds _ (by simp)).covers hnot

/-- A set fires just if it completes the sets that stand before it. -/
theorem report_set {pre post standing : List (Supply σ)} {x : Supply σ}
    (hx : ∀ y ∈ pre ++ x :: post,
      (σ.type y.slot).isNull y.value = false ∨ g.settings.nullPolicy = .fire)
    (h : Stands g pre standing) :
    ∃ rep, (reports g (start g [] dispatch) ((pre ++ x :: post).map Supply.set))[pre.length]? = some rep ∧
      (Supply.Covers (standing ++ [x]) → rep.Fires d (standing ++ [x])) ∧
      (¬ Supply.Covers (standing ++ [x]) → rep.Answers (.flag false)) := by
  have hb : g.isBound = true := by simp [Gate.isBound, hg]
  have hpre := fun y hy => hx y (List.mem_append_left _ hy)
  have hsupplied := supplied_performAll hg hd henabled dispatch hpre h
  have hreport := reports_getElem? g (start g [] dispatch) (pre.map Supply.set) x.set (post.map Supply.set)
  rw [List.length_map] at hreport
  rw [List.map_append, List.map_cons]
  refine ⟨_, hreport, ?_⟩
  rcases hsupplied.set hb hd (hx x (by simp)) with ⟨hcovers, hfires, -⟩ | ⟨hnot, hanswers, -⟩
  · exact ⟨fun _ => hfires, absurd hcovers⟩
  · exact ⟨fun h => absurd h hnot, fun _ => hanswers⟩

/-- A sequence of sets on a fresh gate, with nobody else to act on it. -/
theorem sets_fire_by_rounds {sets : List (Supply σ)}
    (hx : ∀ x ∈ sets, (σ.type x.slot).isNull x.value = false ∨ g.settings.nullPolicy = .fire) :
    g.FiresOn d sets (reports g (start g [] dispatch) (sets.map Supply.set)) := by
  constructor
  case lasting =>
    rintro ho pre x post rfl
    exact report_set hg hd henabled dispatch hx (by simp [Stands, ho])
  case oneShot =>
    intro ho
    obtain ⟨rounds, rest, hcut⟩ := Supply.exists_cut sets
    refine ⟨rounds, rest, hcut, fun _ _ h => hcut.unique h, ?_⟩
    rintro pre x post rfl
    obtain ⟨before, more, standing, -, hpre⟩ := hcut.take
    have hstands : Stands g pre standing := by
      rw [Stands, if_pos ho]
      exact ⟨before, hpre⟩
    obtain ⟨rep, hrep, hfires, hanswers⟩ := report_set hg hd henabled dispatch hx hstands
    refine ⟨rep, hrep, fun earlier round later he hflatten => ?_, fun hno => hanswers fun hcovers => ?_⟩
    · obtain ⟨hcovers, rfl⟩ := (hcut.ends_round hpre).1 ⟨earlier, later, he, hflatten⟩
      exact hfires hcovers
    · obtain ⟨earlier, later, he, hflatten⟩ := (hcut.ends_round hpre).2 ⟨hcovers, rfl⟩
      exact hno earlier _ later he hflatten
  case permuted =>
    rintro v order horder hsets pre x post rfl
    have hslots : (pre ++ x :: post).map Supply.slot = order := by
      rw [hsets, List.map_map]
      exact List.map_id'' (fun _ => rfl) order
    have hnodup : ((pre ++ x :: post).map Supply.slot).Nodup := by
      rw [hslots]
      exact horder.nodup_iff.2 (List.nodup_finRange _)
    have hpre : ¬ Supply.Covers pre := Supply.not_covers_of_nodup hnodup List.mem_cons_self
    have hstands : Stands g pre pre := by
      unfold Stands
      split
      · exact ⟨[], rfl, List.forall_mem_nil _, hpre⟩
      · rfl
    obtain ⟨rep, hrep, hfires, hanswers⟩ := report_set hg hd henabled dispatch hx hstands
    refine ⟨rep, hrep, ?_, fun hpost => ?_⟩
    · rintro rfl
      have hcovers : Supply.Covers (pre ++ [x]) := by
        intro i
        have hi : i ∈ (pre ++ [x]).map Supply.slot := by
          rw [hslots]
          exact horder.mem_iff.2 (List.mem_finRange i)
        exact List.mem_map.1 hi
      obtain ⟨args, hcalls, hhands⟩ := hfires hcovers
      have hvalues : ∀ y ∈ pre ++ [x], y.value = v y.slot := by
        rw [hsets]
        exact List.forall_mem_map.2 fun _ _ => rfl
      exact hhands.eq_stored hvalues ▸ hcalls
    · obtain ⟨y, post, rfl⟩ := List.exists_cons_of_ne_nil hpost
      rw [List.append_cons] at hnodup
      exact hanswers (Supply.not_covers_of_nodup hnodup List.mem_cons_self)

end

/-- Two rounds on a one-shot gate, of three sets and of two, and a set that is left over. -/
theorem sets_fire_by_rounds_of_two_rounds :
    let g := Gate.flags { oneShot := true } [[.panic]]
    let sets : List (Supply .flags) :=
      [⟨Gate.left, true⟩, ⟨Gate.left, false⟩, ⟨Gate.right, true⟩, ⟨Gate.right, false⟩,
        ⟨Gate.left, true⟩, ⟨Gate.right, true⟩]
    let reps := reports g (start g [] (.registering [])) (sets.map Supply.set)
    reps.map (fun rep => rep.calls.length) = [0, 0, 1, 0, 1, 0] ∧ g.FiresOn ⟨[[.panic]]⟩ sets reps := by
  refine ⟨by decide +kernel, ?_⟩
  refine sets_fire_by_rounds rfl ?_ rfl _ ?_
  · intro s hs op hop
    rw [List.mem_singleton.1 hs] at hop
    cases List.mem_singleton.1 hop
  · intro x hx
    exact .inl rfl

end Run

end SlotGate
