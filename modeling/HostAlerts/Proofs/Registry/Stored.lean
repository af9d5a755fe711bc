import HostAlerts.Proofs.Store.RuleTable

/-!
# Snapshots and the tables that they are read from

`Snapshot.StoredIn` says that a snapshot shows what a table of rules holds. A snapshot that is read from a table does
(`Snapshot.storedIn_of_read`), and still does when a rule is put into both or removed from both
(`Snapshot.StoredIn.put`, `Snapshot.StoredIn.remove`). Rows that are no rules are never shown; they may stand in the
table all the while.

What such a table gives when it is read again are the rules that are shown, one by one and in the same order
(`Snapshot.StoredIn.read`).
-/

namespace HostAlerts

variable {r q rule : Rule} {n : Int}

/-! ### Rules that are alike -/

/-- Two floats stand for the same number. -/
def SameNumber (x y : Float) : Prop :=
  x = y ∨ (Value.float x).same (.float y) = true

/-- Two rules have the same fields, where numbers are compared as numbers. -/
structure Rule.Alike (r q : Rule) : Prop where
  /-- All fields but the thresholds. -/
  fields : q = { r with warn := q.warn, crit := q.crit }
  /-- The threshold of a warning. -/
  warn : SameNumber r.warn q.warn
  /-- The threshold of a critical breach. -/
  crit : SameNumber r.crit q.crit

namespace Rule

theorem sameNumber_plainZero (x : Float) : SameNumber x (Decimal.plainZero x) := by
  rw [Decimal.plainZero]
  split
  · rename_i hx
    subst hx
    exact Or.inr (by decide +kernel)
  · exact Or.inl rfl

theorem Alike.refl (r : Rule) : r.Alike r :=
  ⟨rfl, Or.inl rfl, Or.inl rfl⟩

theorem alike_stored (r : Rule) : r.Alike r.stored :=
  ⟨rfl, sameNumber_plainZero _, sameNumber_plainZero _⟩

theorem Alike.id (h : r.Alike q) : q.id = r.id := by
  rw [h.fields]

theorem Alike.key (h : r.Alike q) : q.key = r.key := by
  rw [h.fields]
  rfl

/-- The first rule has the smaller one of two whole numbers. -/
def Before (r q : Rule) : Prop :=
  ∃ m n, r.id = .int m ∧ q.id = .int n ∧ m < n

theorem Before.id_ne (h : r.Before q) : r.id ≠ q.id := by
  obtain ⟨m, n, hr, hq, hlt⟩ := h
  rw [hr, hq]
  intro heq
  exact absurd (Value.int.inj heq) hlt.ne

theorem Before.trans {r' : Rule} (h : r.Before q) (h' : q.Before r') : r.Before r' := by
  obtain ⟨m, n, hr, hq, hlt⟩ := h
  obtain ⟨n', k, hq', hr', hlt'⟩ := h'
  obtain rfl := Value.int.inj (hq.symm.trans hq')
  exact ⟨m, k, hr, hr', hlt.trans hlt'⟩

theorem Before.congr {r' q' : Rule} (h : r.Before q) (hr : r'.id = r.id) (hq : q'.id = q.id) : r'.Before q' := by
  obtain ⟨m, n, hm, hn, hlt⟩ := h
  exact ⟨m, n, hr.trans hm, hq.trans hn, hlt⟩

/-- Rules in ascending order that are alike each to some of the others are alike one by one. -/
theorem forall₂_alike {rules others : List Rule} (hrules : rules.Pairwise Before) (hothers : others.Pairwise Before)
    (hleft : ∀ r ∈ rules, ∃ q ∈ others, r.Alike q) (hright : ∀ q ∈ others, ∃ r ∈ rules, r.Alike q) :
    List.Forall₂ Alike rules others := by
  induction rules generalizing others with
  | nil =>
    cases others with
    | nil => exact .nil
    | cons q rest =>
      obtain ⟨r, hr, -⟩ := hright q List.mem_cons_self
      cases hr
  | cons r rest ih =>
    obtain ⟨hfirst, hrest⟩ := List.pairwise_cons.1 hrules
    obtain ⟨q, hq, halike⟩ := hleft r List.mem_cons_self
    cases others with
    | nil => cases hq
    | cons q' rest' =>
      obtain ⟨hfirst', hrest'⟩ := List.pairwise_cons.1 hothers
      obtain ⟨r', hr', halike'⟩ := hright q' List.mem_cons_self
      -- the first of one list is alike to the first of the other, as neither has a smaller one before it
      have hheads : r.Alike q' := by
        rcases List.mem_cons.1 hq with rfl | hq
        · exact halike
        rcases List.mem_cons.1 hr' with rfl | hr'
        · exact halike'
        have hlt := (hfirst' q hq).congr halike'.id.symm halike.id.symm
        exact absurd rfl ((hfirst r' hr').trans hlt).id_ne
      refine .cons hheads (ih hrest hrest' (fun p hp ↦ ?_) fun p hp ↦ ?_)
      · obtain ⟨p', hp', hsame⟩ := hleft p (List.mem_cons_of_mem _ hp)
        rcases List.mem_cons.1 hp' with rfl | hp'
        · exact absurd (hheads.id.symm.trans hsame.id) (hfirst p hp).id_ne
        · exact ⟨p', hp', hsame⟩
      · obtain ⟨p', hp', hsame⟩ := hright p (List.mem_cons_of_mem _ hp)
        rcases List.mem_cons.1 hp' with rfl | hp'
        · exact absurd (hheads.id.trans hsame.id.symm) (hfirst' p hp).id_ne
        · exact ⟨p', hp', hsame⟩

end Rule

/-! ### Changes of a snapshot -/

namespace Snapshot

variable {s s' : Snapshot} {t : RuleTable} {rules : List Rule}

/-- A new rule finds its place among rules in ascending order. -/
theorem exists_insertById (hrules : rules.Pairwise Rule.Before) (hid : rule.id = .int n)
    (hids : ∀ q ∈ rules, ∃ m, q.id = .int m ∧ m ≠ n) :
    ∃ rules', insertById rule rules = .ok rules' ∧ rules'.Pairwise Rule.Before ∧
      ∀ p, p ∈ rules' ↔ p = rule ∨ p ∈ rules := by
  induction rules with
  | nil => exact ⟨[rule], rfl, List.pairwise_singleton _ _, fun p ↦ by simp⟩
  | cons first rest ih =>
    obtain ⟨hfirst, hrest⟩ := List.pairwise_cons.1 hrules
    obtain ⟨m, hm, hne⟩ := hids first List.mem_cons_self
    rw [insertById, hid, hm, Value.less?_int]
    rcases Int.lt_or_gt_of_ne hne with hlt | hgt
    · rw [decide_eq_false (not_lt.2 hlt.le)]
      obtain ⟨rules', hinsert, hordered, hmem⟩ := ih hrest fun q hq ↦ hids q (List.mem_cons_of_mem _ hq)
      refine ⟨first :: rules', by rw [hinsert]; rfl, List.pairwise_cons.2 ⟨fun p hp ↦ ?_, hordered⟩, fun p ↦ ?_⟩
      · rcases (hmem p).1 hp with rfl | hp
        · exact ⟨m, n, hm, hid, hlt⟩
        · exact hfirst p hp
      · rw [List.mem_cons, hmem, List.mem_cons, or_left_comm]
    · rw [decide_eq_true hgt]
      have hbefore : rule.Before first := ⟨n, m, hid, hm, hgt⟩
      refine ⟨rule :: first :: rest, rfl, List.pairwise_cons.2 ⟨fun p hp ↦ ?_, hrules⟩, fun p ↦ List.mem_cons⟩
      rcases List.mem_cons.1 hp with rfl | hp
      · exact hbefore
      · exact hbefore.trans (hfirst p hp)

/-- Rules in ascending order are in order. -/
theorem inOrder_of_ascending (h : rules.Pairwise Rule.Before) : inOrder rules = .ok rules := by
  induction rules with
  | nil => rfl
  | cons first rest ih =>
    obtain ⟨hfirst, hrest⟩ := List.pairwise_cons.1 h
    have hnew : rest.any (·.id.same first.id) = false := by
      refine List.any_eq_false.2 fun q hq hsame ↦ ?_
      obtain ⟨m, n, hm, hn, hlt⟩ := hfirst q hq
      rw [hm, hn] at hsame
      exact absurd (Value.same_int_int.1 hsame) hlt.ne'
    rw [inOrder, ih hrest]
    change (if rest.any _ = true then _ else insertById first rest) = _
    rw [hnew, if_neg Bool.false_ne_true]
    cases rest with
    | nil => rfl
    | cons second rest' =>
      obtain ⟨m, n, hm, hn, hlt⟩ := hfirst second List.mem_cons_self
      rw [insertById, hm, hn, Value.less?_int, decide_eq_true hlt]

/-- **Putting a rule among rules with whole numbers succeeds**, and the rule takes the place of the one with its id. -/
theorem exists_put (hrules : s.rules.Pairwise Rule.Before) (hids : ∀ q ∈ s.rules, ∃ m, q.id = .int m)
    (hid : rule.id = .int n) : ∃ s', s.put rule = .ok s' ∧ s'.rules.Pairwise Rule.Before ∧
      ∀ p, p ∈ s'.rules ↔ p = rule ∨ p ∈ s.rules ∧ p.id ≠ rule.id := by
  have hsame (q : Rule) (hq : q ∈ s.rules) : q.id.same rule.id = true ↔ q.id = rule.id := by
    obtain ⟨m, hm⟩ := hids q hq
    rw [hm, hid, Value.same_int_int]
    exact ⟨congrArg Value.int, Value.int.inj⟩
  cases hfind : s.find? rule.id with
  | none =>
    have hne (q : Rule) (hq : q ∈ s.rules) : q.id ≠ rule.id := fun heq ↦
      List.find?_eq_none.1 hfind q hq ((hsame q hq).2 heq)
    obtain ⟨rules', hinsert, hordered, hmem⟩ := exists_insertById hrules hid fun q hq ↦ by
      obtain ⟨m, hm⟩ := hids q hq
      exact ⟨m, hm, fun heq ↦ hne q hq (by rw [hm, hid, heq])⟩
    refine ⟨⟨s.revision + 1, rules'⟩, ?_, hordered, fun p ↦ (hmem p).trans (or_congr_right ?_)⟩
    · rw [put, hfind, hinsert]
      rfl
    · exact ⟨fun hp ↦ ⟨hp, hne p hp⟩, And.left⟩
  | some other =>
    have hfound : s.rules.find? (·.id.same rule.id) = some other := hfind
    have hother : other ∈ s.rules := List.mem_of_find?_eq_some hfound
    have hotherId : other.id.same rule.id = true := by simpa using List.find?_some hfound
    have hkeepsId (q : Rule) (hq : q ∈ s.rules) : (if q.id.same rule.id then rule else q).id = q.id := by
      split
      · rename_i h
        exact ((hsame q hq).1 h).symm
      · rfl
    refine ⟨⟨s.revision + 1, _⟩, by rw [put, hfind]; rfl, ?_, fun p ↦ ?_⟩
    · refine List.pairwise_map.2 (hrules.imp_of_mem fun ha hb hbefore ↦ ?_)
      exact hbefore.congr (hkeepsId _ ha) (hkeepsId _ hb)
    · refine List.mem_map.trans ⟨fun ⟨q, hq, heq⟩ ↦ ?_, ?_⟩
      · subst heq
        split
        · exact Or.inl rfl
        · rename_i h
          exact Or.inr ⟨hq, fun heq ↦ h ((hsame q hq).2 heq)⟩
      · rintro (rfl | ⟨hp, hne⟩)
        · exact ⟨other, hother, if_pos hotherId⟩
        · exact ⟨p, hp, if_neg fun h ↦ hne ((hsame p hp).1 h)⟩

/-! ### What a table of rules shows -/

/-- The snapshot shows what the table holds. -/
structure StoredIn (s : Snapshot) (t : RuleTable) : Prop where
  /-- The table is sound. -/
  sound : t.Sound
  /-- Every row can be read, as a rule or as none. -/
  readable : ∀ row ∈ t.rows, ∃ found, Registry.ofRow row.entries = .ok found
  /-- The rules are in ascending order. -/
  ascending : s.rules.Pairwise Rule.Before
  /-- The rules can be stored. -/
  storable : ∀ r ∈ s.rules, r.Storable
  /-- Every rule has a row. -/
  stored : ∀ r ∈ s.rules, ∃ row ∈ t.rows, ∃ q, row.rule? = some q ∧ r.Alike q
  /-- Every row that is a rule is shown. -/
  shown : ∀ row ∈ t.rows, ∀ q, row.rule? = some q → ∃ r ∈ s.rules, r.Alike q

/-- The rules that are read from rows. -/
theorem read_eq {rows : List RuleRow} {found : List (Option Rule)}
    (h : (rows.map (·.entries)).mapM Registry.ofRow = .ok found) : found.filterMap id = rows.filterMap (·.rule?) := by
  have hfound : found = (rows.map (·.entries)).map fun entries ↦ (Registry.ofRow entries).toOption.join :=
    eq_map_of_mapM (fun entries made hmade ↦ by rw [hmade]; rfl) h
  rw [hfound, List.map_map, List.filterMap_map]
  rfl

theorem ascending_read (h : t.Sound) : (t.rows.filterMap (·.rule?)).Pairwise Rule.Before := by
  refine List.pairwise_filterMap.2 (h.imp fun {a b} hab r hr q hq ↦ ?_)
  exact ⟨a.id, b.id, (RuleRow.shows_of_rule? hr).id, (RuleRow.shows_of_rule? hq).id, hab.1⟩

/-- **What is read from a table is what the table holds.** -/
theorem storedIn_of_read (h : t.Sound) {found : List (Option Rule)}
    (hfound : (t.rows.map (·.entries)).mapM Registry.ofRow = .ok found) (revision : Nat) :
    StoredIn ⟨revision, found.filterMap id⟩ t := by
  rw [read_eq hfound]
  refine ⟨h, fun row hrow ↦ ?_, ascending_read h, fun r hr ↦ ?_, fun r hr ↦ ?_, fun row hrow q hq ↦ ?_⟩
  · obtain ⟨made, -, hmade⟩ := exists_of_mem_of_mapM hfound (List.mem_map_of_mem hrow)
    exact ⟨made, hmade⟩
  · obtain ⟨row, -, hq⟩ := List.mem_filterMap.1 hr
    exact (RuleRow.shows_of_rule? hq).storable
  · obtain ⟨row, hrow, hq⟩ := List.mem_filterMap.1 hr
    exact ⟨row, hrow, r, hq, .refl r⟩
  · exact ⟨q, List.mem_filterMap.2 ⟨row, hrow, hq⟩, .refl q⟩

namespace StoredIn

theorem ids (h : s.StoredIn t) : ∀ r ∈ s.rules, ∃ m, r.id = .int m :=
  fun r hr ↦ (h.storable r hr).id

/-- **The rules that are read again** are those that are shown. -/
theorem read (h : s.StoredIn t) : ∃ found rules, (t.rows.map (·.entries)).mapM Registry.ofRow = .ok found ∧
    inOrder (found.filterMap id) = .ok rules ∧ List.Forall₂ Rule.Alike s.rules rules := by
  have hrows : ∀ entries ∈ t.rows.map (·.entries), ∃ found, Registry.ofRow entries = .ok found := by
    intro entries hentries
    obtain ⟨row, hrow, rfl⟩ := List.mem_map.1 hentries
    exact h.readable row hrow
  obtain ⟨found, hfound, -⟩ := exists_of_forall_mapM hrows
  refine ⟨found, _, hfound, inOrder_of_ascending ?_, ?_⟩
  · rw [read_eq hfound]
    exact ascending_read h.sound
  · rw [read_eq hfound]
    refine Rule.forall₂_alike h.ascending (ascending_read h.sound) (fun r hr ↦ ?_) fun q hq ↦ ?_
    · obtain ⟨row, hrow, q, hq, halike⟩ := h.stored r hr
      exact ⟨q, List.mem_filterMap.2 ⟨row, hrow, hq⟩, halike⟩
    · obtain ⟨row, hrow, hq⟩ := List.mem_filterMap.1 hq
      exact h.shown row hrow q hq

/-- No two rules that are shown have the same host and name. -/
theorem key_ne (h : s.StoredIn t) (hr : r ∈ s.rules) (hq : q ∈ s.rules) (hne : r.id ≠ q.id) : r.key ≠ q.key := by
  obtain ⟨row, hrow, r', hr', halike⟩ := h.stored r hr
  obtain ⟨other, hother, q', hq', halike'⟩ := h.stored q hq
  obtain ⟨-, hid, hname, hhost⟩ := RuleRow.shows_of_rule? hr'
  obtain ⟨-, hid', hname', hhost'⟩ := RuleRow.shows_of_rule? hq'
  intro hkey
  have hkeys : r'.key = q'.key := halike.key.trans (hkey.trans halike'.key.symm)
  obtain ⟨hhosts, hnames⟩ := Prod.mk.inj hkeys
  have hshares : other.sharesName row = true := (RuleRow.sharesName_iff hname hhost).2
    ⟨by rw [hhost', hhosts], by rw [hname', hnames]⟩
  have hids : row.id ≠ other.id := fun heq ↦ hne (by rw [← halike.id, ← halike'.id, hid, hid', heq])
  rcases Int.lt_or_gt_of_ne hids with hlt | hgt
  · have hapart := h.sound.apart hrow hother hlt
    rw [RuleRow.sharesName_comm hname hhost, hshares] at hapart
    cases hapart
  · have hapart := h.sound.apart hother hrow hgt
    rw [hshares] at hapart
    cases hapart

/-- **A rule that is written and shown.** No other rule has its host and name, so no row that is shown makes way. -/
theorem put (h : s.StoredIn t) (hrule : rule.Storable) (hid : rule.id = .int n)
    (hkeys : ∀ q ∈ s.rules, q.id = rule.id ∨ q.key ≠ rule.key) :
    ∃ s', s.put rule = .ok s' ∧ s'.StoredIn (t.put ⟨n, rule.cells⟩) := by
  obtain ⟨s', hput, hascending, hmem⟩ := exists_put h.ascending h.ids hid
  obtain ⟨hname, hhost⟩ := RuleRow.cells_key rule n
  have hread : (RuleRow.mk n rule.cells).rule? = some rule.stored :=
    RuleRow.rule?_eq_some_iff.2 (Rule.ofRow_cells hrule hid)
  refine ⟨s', hput, h.sound.put hname hhost, fun row hrow ↦ ?_, hascending, fun r hr ↦ ?_, fun r hr ↦ ?_,
    fun row hrow q hq ↦ ?_⟩
  · rcases RuleTable.mem_put_iff.1 hrow with rfl | ⟨hrow, -, -⟩
    · exact ⟨_, Rule.ofRow_cells hrule hid⟩
    · exact h.readable row hrow
  · rcases (hmem r).1 hr with rfl | ⟨hr, -⟩
    · exact hrule
    · exact h.storable r hr
  · rcases (hmem r).1 hr with rfl | ⟨hr, hne⟩
    · exact ⟨_, RuleTable.mem_put_iff.2 (Or.inl rfl), _, hread, r.alike_stored⟩
    · -- the row of another rule stays
      obtain ⟨row, hrow, q, hq, halike⟩ := h.stored r hr
      obtain ⟨-, hqid, hqname, hqhost⟩ := RuleRow.shows_of_rule? hq
      refine ⟨row, RuleTable.mem_put_iff.2 (Or.inr ⟨hrow, fun heq ↦ hne ?_, ?_⟩), q, hq, halike⟩
      · rw [← halike.id, hqid, hid, heq]
      · refine Bool.eq_false_iff.2 fun hshares ↦ (hkeys r hr).resolve_left hne ?_
        obtain ⟨hhosts, hnames⟩ := (RuleRow.sharesName_iff hname hhost).1 hshares
        rw [← halike.key, Rule.key, Rule.key, Cell.text.inj (hqhost.symm.trans hhosts),
          Cell.text.inj (hqname.symm.trans hnames)]
  · rcases RuleTable.mem_put_iff.1 hrow with rfl | ⟨hrow, hne, -⟩
    · cases hread.symm.trans hq
      exact ⟨rule, (hmem rule).2 (Or.inl rfl), rule.alike_stored⟩
    · obtain ⟨r, hr, halike⟩ := h.shown row hrow q hq
      refine ⟨r, (hmem r).2 (Or.inr ⟨hr, fun heq ↦ hne ?_⟩), halike⟩
      have hqid := (RuleRow.shows_of_rule? hq).id
      exact Value.int.inj (hqid.symm.trans (halike.id.trans (heq.trans hid)))

/-- **A rule that is removed** from the table and from the snapshot. -/
theorem remove (h : s.StoredIn t) (n : Int) : (s.remove (.int n)).StoredIn (t.delete (.int n)).1 := by
  have hmem (r : Rule) : r ∈ (s.remove (.int n)).rules ↔ r ∈ s.rules ∧ r.id ≠ .int n := by
    refine List.mem_filter.trans (and_congr_right fun hr ↦ ?_)
    obtain ⟨m, hm⟩ := h.ids r hr
    rw [hm, Bool.not_eq_true', ← Bool.not_eq_true, Value.same_int_int]
    exact not_congr ⟨congrArg Value.int, Value.int.inj⟩
  refine ⟨h.sound.delete _, fun row hrow ↦ h.readable row (RuleTable.mem_delete_iff.1 hrow).1,
    List.Pairwise.filter _ h.ascending, fun r hr ↦ h.storable r ((hmem r).1 hr).1, fun r hr ↦ ?_,
    fun row hrow q hq ↦ ?_⟩
  · obtain ⟨hr, hne⟩ := (hmem r).1 hr
    obtain ⟨row, hrow, q, hq, halike⟩ := h.stored r hr
    have hqid := (RuleRow.shows_of_rule? hq).id
    refine ⟨row, RuleTable.mem_delete_iff.2 ⟨hrow, fun heq ↦ hne ?_⟩, q, hq, halike⟩
    rw [← halike.id, hqid, heq]
  · obtain ⟨hrow, hne⟩ := RuleTable.mem_delete_iff.1 hrow
    obtain ⟨r, hr, halike⟩ := h.shown row hrow q hq
    have hqid := (RuleRow.shows_of_rule? hq).id
    exact ⟨r, (hmem r).2 ⟨hr, fun heq ↦ hne (Value.int.inj (hqid.symm.trans (halike.id.trans heq)))⟩, halike⟩

end StoredIn

end Snapshot

end HostAlerts
