import Mathlib.Data.List.Nodup
import TestChain.Block.Basic

/-! What a Merkle root says of the digests below it.

A level is joined in pairs (`Merkle.pairs`), and a last digest without a neighbour is paired with
itself. So a list and the list with its last digest repeated have one level above, and a root can
settle a list only up to such repetition (`Agree`): one of the lists is the other with some of its
digests repeated after it.

That much it does settle. Going down from two equal roots level by level, each level agrees as long
as the hash tells the joined strings apart (`Merkle.agree_of_levelAbove`). The lists may be of
different heights, so the digests of one may come to stand beside joined digests of the other;
`Merkle.agree_of_root_eq` asks that no digest of a list is a joined one. Lists of one length are of
one height, and there is no room for a repetition (`Merkle.eq_of_root_eq`). -/
namespace TestChain

/-- The hash tells the strings apart: no two of them collide. -/
def TellsApart (strings : List Bytes) : Prop :=
  ∀ s ∈ strings, ∀ t ∈ strings, sha256d s = sha256d t → s = t

theorem TellsApart.mono {strings strings' : List Bytes} (h : TellsApart strings')
    (hsub : strings ⊆ strings') : TellsApart strings :=
  fun s hs t ht => h s (hsub hs) t (hsub ht)

theorem tellsApart_of_nodup {strings : List Bytes} (h : (strings.map sha256d).Nodup) :
    TellsApart strings :=
  fun _ hs _ ht => List.inj_on_of_nodup_map h hs ht

theorem TellsApart.not_collision {strings : List Bytes} (h : TellsApart strings) :
    ∀ s ∈ strings, ∀ t ∈ strings, ¬Collision s t :=
  fun s hs t ht hsame => hsame.1 (h s hs t ht hsame.2)

theorem tellsApart_or_collision (strings : List Bytes) :
    TellsApart strings ∨ ∃ s ∈ strings, ∃ t ∈ strings, Collision s t := by
  by_cases h : TellsApart strings
  · exact .inl h
  · right
    unfold TellsApart at h
    push Not at h
    obtain ⟨s, hs, t, ht, hsame, hne⟩ := h
    exact ⟨s, hs, t, ht, hne, hsame⟩

/-! ### Lists up to repetition -/

section Repetition
variable {α β : Type} {a b : List α}

/-- The second list is the first, and after it nothing but items of the first. -/
def Repeats (a b : List α) : Prop := a <+: b ∧ b ⊆ a

/-- One of the lists is the other with items of it repeated at the end. -/
def Agree (a b : List α) : Prop := Repeats a b ∨ Repeats b a

theorem Agree.refl (a : List α) : Agree a a := .inl ⟨List.prefix_rfl, List.Subset.refl a⟩

theorem Agree.symm (h : Agree a b) : Agree b a := Or.symm h

theorem Repeats.eq_of_nodup (h : Repeats a b) (hb : b.Nodup) : a = b := by
  obtain ⟨⟨rest, rfl⟩, hsub⟩ := h
  cases rest with
  | nil => rw [List.append_nil]
  | cons x rest =>
    have hx : x ∈ a := hsub (List.mem_append_right _ List.mem_cons_self)
    exact absurd rfl ((List.nodup_append.1 hb).2.2 x hx x List.mem_cons_self)

/-- Lists that agree are equal where nothing is repeated. -/
theorem Agree.eq_of_nodup (h : Agree a b) (ha : a.Nodup) (hb : b.Nodup) : a = b := by
  rcases h with h | h
  · exact h.eq_of_nodup hb
  · exact (h.eq_of_nodup ha).symm

/-- Lists that agree are equal where neither is longer. -/
theorem Agree.eq_of_length (h : Agree a b) (hlen : a.length = b.length) : a = b := by
  rcases h with h | h
  · exact h.1.eq_of_length hlen
  · exact (h.1.eq_of_length hlen.symm).symm

theorem Agree.subset (h : Agree a b) : a ⊆ b := by
  rcases h with ⟨hfront, -⟩ | ⟨-, hsub⟩
  · exact hfront.subset
  · exact hsub

theorem prefix_of_map {f : α → β} (hf : ∀ x ∈ a, ∀ y ∈ b, f x = f y → x = y)
    (h : a.map f <+: b.map f) : a <+: b := by
  induction a generalizing b with
  | nil => exact List.nil_prefix
  | cons x a ih =>
    cases b with
    | nil => exact absurd (List.prefix_nil.1 h) (List.cons_ne_nil _ _)
    | cons y b =>
      rw [List.map_cons, List.map_cons, List.cons_prefix_cons] at h
      obtain ⟨hxy, hrest⟩ := h
      rw [hf x List.mem_cons_self y List.mem_cons_self hxy, List.cons_prefix_cons]
      refine ⟨rfl, ih (fun x hx y hy => ?_) hrest⟩
      exact hf x (List.mem_cons_of_mem _ hx) y (List.mem_cons_of_mem _ hy)

theorem Repeats.of_map {f : α → β} (hf : ∀ x ∈ a, ∀ y ∈ b, f x = f y → x = y)
    (h : Repeats (a.map f) (b.map f)) : Repeats a b := by
  refine ⟨prefix_of_map hf h.1, fun y hy => ?_⟩
  obtain ⟨x, hx, hxy⟩ := List.mem_map.1 (h.2 (List.mem_map_of_mem hy))
  exact hf x hx y hy hxy ▸ hx

/-- Lists agree where their images do, under a map that tells their items apart. -/
theorem Agree.of_map {f : α → β} (hf : ∀ x ∈ a, ∀ y ∈ b, f x = f y → x = y)
    (h : Agree (a.map f) (b.map f)) : Agree a b := by
  rcases h with h | h
  · exact .inl (h.of_map hf)
  · exact .inr (h.of_map fun y hy x hx e => (hf x hx y hy e.symm).symm)

end Repetition

namespace Merkle

/-! ### One level -/

/-- The neighbours of a level, a last digest without a neighbour beside itself. -/
def pairs : List Digest → List (Digest × Digest)
  | [] => []
  | [last] => [(last, last)]
  | left :: right :: rest => (left, right) :: pairs rest

/-- The string that is hashed for two neighbours. -/
def joined (p : Digest × Digest) : Bytes := p.1.toList ++ p.2.toList

theorem length_joined (p : Digest × Digest) : (joined p).length = 64 := by
  rw [joined, List.length_append, p.1.length_toList, p.2.length_toList]

theorem joined_inj {p q : Digest × Digest} (h : joined p = joined q) : p = q := by
  obtain ⟨hleft, hright⟩ := List.append_inj h (by rw [p.1.length_toList, q.1.length_toList])
  exact Prod.ext (FixedBytes.ext hleft) (FixedBytes.ext hright)

theorem levelAbove_eq (level : List Digest) :
    levelAbove level = ((pairs level).map joined).map sha256d := by
  fun_induction levelAbove level with
  | case1 => rfl
  | case2 last => rfl
  | case3 left right rest ih =>
    rw [ih]
    rfl

/-- Behind an even number of digests the pairs start afresh. -/
theorem pairs_append {front : List Digest} (heven : front.length % 2 = 0) (back : List Digest) :
    pairs (front ++ back) = pairs front ++ pairs back := by
  fun_induction pairs front with
  | case1 => rfl
  | case2 only => cases heven
  | case3 left right rest ih =>
    have hrest : rest.length % 2 = 0 := by
      simp only [List.length_cons] at heven
      omega
    exact congrArg ((left, right) :: ·) (ih hrest)

theorem levelAbove_append {front : List Digest} (heven : front.length % 2 = 0)
    (back : List Digest) : levelAbove (front ++ back) = levelAbove front ++ levelAbove back := by
  rw [levelAbove_eq, levelAbove_eq, levelAbove_eq, pairs_append heven, List.map_append,
    List.map_append]

theorem mem_iff_mem_pairs {x : Digest} {level : List Digest} :
    x ∈ level ↔ ∃ p ∈ pairs level, x = p.1 ∨ x = p.2 := by
  fun_induction pairs level with
  | case1 => simp
  | case2 last => simp
  | case3 left right rest ih => simp [ih, or_assoc]

theorem prefix_of_pairs {a b : List Digest} (h : pairs a <+: pairs b) : a <+: b ∨ b <+: a := by
  fun_induction pairs a generalizing b with
  | case1 => exact .inl List.nil_prefix
  | case2 last =>
    match b with
    | [] => exact .inr List.nil_prefix
    | [only] =>
      obtain ⟨rfl, -⟩ := Prod.mk.inj (List.cons_prefix_cons.1 h).1
      exact .inl List.prefix_rfl
    | left :: right :: rest =>
      obtain ⟨rfl, -⟩ := Prod.mk.inj (List.cons_prefix_cons.1 h).1
      exact .inl (List.cons_prefix_cons.2 ⟨rfl, List.nil_prefix⟩)
  | case3 left right rest ih =>
    match b with
    | [] => exact .inr List.nil_prefix
    | [only] =>
      obtain ⟨rfl, -⟩ := Prod.mk.inj (List.cons_prefix_cons.1 h).1
      exact .inr (List.cons_prefix_cons.2 ⟨rfl, List.nil_prefix⟩)
    | left' :: right' :: rest' =>
      obtain ⟨hpair, hrest⟩ := List.cons_prefix_cons.1 h
      obtain ⟨rfl, rfl⟩ := Prod.mk.inj hpair
      simp only [List.cons_prefix_cons, true_and]
      exact ih hrest

theorem subset_of_pairs {a b : List Digest} (h : pairs a ⊆ pairs b) : a ⊆ b := by
  intro x hx
  obtain ⟨p, hp, hxp⟩ := mem_iff_mem_pairs.1 hx
  exact mem_iff_mem_pairs.2 ⟨p, h hp, hxp⟩

theorem agree_of_pairs {a b : List Digest} (h : Repeats (pairs a) (pairs b)) : Agree a b := by
  rcases prefix_of_pairs h.1 with hab | hba
  · exact .inl ⟨hab, subset_of_pairs h.2⟩
  · exact .inr ⟨hba, subset_of_pairs h.1.subset⟩

/-- **One level down**: lists agree where the levels above them do, as long as the hash tells apart
what it is given for the levels above. -/
theorem agree_of_levelAbove {a b : List Digest}
    (hapart : TellsApart ((pairs a).map joined ++ (pairs b).map joined))
    (h : Agree (levelAbove a) (levelAbove b)) : Agree a b := by
  rw [levelAbove_eq, levelAbove_eq] at h
  have hstrings : Agree ((pairs a).map joined) ((pairs b).map joined) :=
    h.of_map fun s hs t ht => hapart s (List.mem_append_left _ hs) t (List.mem_append_right _ ht)
  rcases hstrings.of_map fun _ _ _ _ => joined_inj with hpairs | hpairs
  · exact agree_of_pairs hpairs
  · exact (agree_of_pairs hpairs).symm

/-! ### All levels -/

/-- The strings that are hashed on the way to the root. -/
def strings : List Digest → List Bytes
  | [] => []
  | [_] => []
  | left :: right :: rest =>
    (pairs (left :: right :: rest)).map joined ++ strings (levelAbove (left :: right :: rest))
  termination_by level => level.length
  decreasing_by simp only [length_levelAbove, List.length_cons]; omega

/-- A level that is met on the way from another to the root. -/
inductive LevelOver : List Digest → List Digest → Prop
  | refl (level : List Digest) : LevelOver level level
  | above {level top : List Digest} : 2 ≤ level.length → LevelOver (levelAbove level) top →
    LevelOver level top

section Levels
variable {level top : List Digest}

theorem root_levelAbove (h : 2 ≤ level.length) : root level = root (levelAbove level) := by
  match level, h with
  | left :: right :: rest, _ => rw [root]

theorem strings_eq (h : 2 ≤ level.length) :
    strings level = (pairs level).map joined ++ strings (levelAbove level) := by
  match level, h with
  | left :: right :: rest, _ => rw [strings]

theorem levelAbove_ne_nil (h : 2 ≤ level.length) : levelAbove level ≠ [] := by
  match level, h with
  | left :: right :: rest, _ => exact List.cons_ne_nil _ _

theorem levelOver_root (h : level ≠ []) : LevelOver level [root level] := by
  fun_induction root level with
  | case1 => exact absurd rfl h
  | case2 only => exact .refl _
  | case3 left right rest ih => exact .above (by simp) (ih (levelAbove_ne_nil (by simp)))

/-- What is met over the level above is itself above something met. -/
theorem LevelOver.exists_below (h : LevelOver (levelAbove level) top) (hlen : 2 ≤ level.length) :
    ∃ below, LevelOver level below ∧ 2 ≤ below.length ∧ top = levelAbove below := by
  generalize habove : levelAbove level = mid at h
  induction h generalizing level with
  | refl mid => exact ⟨level, .refl level, hlen, habove.symm⟩
  | @above mid top hmid _ ih =>
    obtain ⟨below, hbelow, hlen', htop⟩ := ih hmid rfl
    exact ⟨below, .above hlen (habove ▸ hbelow), hlen', htop⟩

/-- What is joined over a level is hashed on the way to its root. -/
theorem LevelOver.joined_subset (h : LevelOver level top) (hlen : 2 ≤ top.length) :
    (pairs top).map joined ⊆ strings level := by
  induction h with
  | refl level =>
    rw [strings_eq hlen]
    exact List.subset_append_left _ _
  | above hlevel _ ih =>
    rw [strings_eq hlevel]
    exact List.Subset.trans (ih hlen) (List.subset_append_right _ _)

/-- Each digest of a level that is not the lowest is that of a string hashed on the way. -/
theorem LevelOver.eq_or_hashed (h : LevelOver level top) :
    top = level ∨ ∀ d ∈ top, ∃ s ∈ strings level, d = sha256d s := by
  cases h with
  | refl => exact .inl rfl
  | above hlen h =>
    obtain ⟨below, hbelow, hlen', rfl⟩ := h.exists_below hlen
    right
    intro d hd
    rw [levelAbove_eq] at hd
    obtain ⟨s, hs, rfl⟩ := List.mem_map.1 hd
    exact ⟨s, hbelow.joined_subset hlen' hs, rfl⟩

theorem length_of_mem_strings {s : Bytes} (h : s ∈ strings level) : s.length = 64 := by
  fun_induction strings level with
  | case1 => cases h
  | case2 => cases h
  | case3 left right rest ih =>
    rcases List.mem_append.1 h with h | h
    · obtain ⟨p, -, rfl⟩ := List.mem_map.1 h
      exact length_joined p
    · exact ih h

end Levels

section Roots
variable {a b : List Digest}

/-- One level down, anywhere over two lists. -/
theorem LevelOver.agree {top below : List Digest} (hapart : TellsApart (strings a ++ strings b))
    (htop : LevelOver a top) (hbelow : LevelOver b below) (hlen : 2 ≤ top.length)
    (hlen' : 2 ≤ below.length) (h : Agree (levelAbove top) (levelAbove below)) :
    Agree top below := by
  refine agree_of_levelAbove (hapart.mono (List.append_subset.2 ⟨?_, ?_⟩)) h
  · exact List.Subset.trans (htop.joined_subset hlen) (List.subset_append_left _ _)
  · exact List.Subset.trans (hbelow.joined_subset hlen') (List.subset_append_right _ _)

/-- What is told apart from here on is told apart from one level further up on. -/
theorem tellsApart_levelAbove (hapart : TellsApart (strings a ++ strings b))
    (ha : 2 ≤ a.length) (hb : 2 ≤ b.length) :
    TellsApart (strings (levelAbove a) ++ strings (levelAbove b)) := by
  refine hapart.mono (List.append_subset.2 ⟨?_, ?_⟩)
  · rw [strings_eq ha]
    exact List.Subset.trans (List.subset_append_right _ _) (List.subset_append_left _ _)
  · rw [strings_eq hb]
    exact List.Subset.trans (List.subset_append_right _ _) (List.subset_append_right _ _)

/-- Two lists with one root: one of them agrees with a level over the other. -/
theorem exists_agree (hapart : TellsApart (strings a ++ strings b)) (ha : a ≠ []) (hb : b ≠ [])
    (h : root a = root b) :
    (∃ top, LevelOver b top ∧ Agree a top) ∨ ∃ top, LevelOver a top ∧ Agree top b := by
  -- The lists are taken up to the root together, until one of them has only the root left.
  fun_induction root a generalizing b with
  | case1 => exact absurd rfl ha
  | case2 only =>
    subst h
    exact .inl ⟨[root b], levelOver_root hb, .refl _⟩
  | case3 left right rest ih =>
    generalize ha' : left :: right :: rest = a at *
    have hlen : 2 ≤ a.length := by simp [← ha']
    match b with
    | [] => exact absurd rfl hb
    | [only] =>
      have hroot : root a = only := by rw [root_levelAbove hlen, h, root]
      exact .inr ⟨[only], hroot ▸ levelOver_root ha, .refl _⟩
    | left' :: right' :: rest' =>
      generalize hb' : left' :: right' :: rest' = b at *
      have hlen' : 2 ≤ b.length := by simp [← hb']
      rcases ih (tellsApart_levelAbove hapart hlen hlen') (levelAbove_ne_nil hlen)
        (levelAbove_ne_nil hlen') (h.trans (root_levelAbove hlen')) with
        ⟨top, htop, hagree⟩ | ⟨top, htop, hagree⟩
      · obtain ⟨below, hbelow, hlow, rfl⟩ := htop.exists_below hlen'
        exact .inl ⟨below, hbelow, LevelOver.agree hapart (.refl a) hbelow hlen hlow hagree⟩
      · obtain ⟨below, hbelow, hlow, rfl⟩ := htop.exists_below hlen
        exact .inr ⟨below, hbelow, LevelOver.agree hapart hbelow (.refl b) hlow hlen' hagree⟩

/-- **A root settles its list** up to repetition, as long as the hash tells apart what it is given
and no digest of the lists is that of a joined string. -/
theorem agree_of_root_eq (hapart : TellsApart (strings a ++ strings b))
    (hlow : ∀ d ∈ a ++ b, ∀ s ∈ strings a ++ strings b, d ≠ sha256d s) (ha : a ≠ [])
    (hb : b ≠ []) (h : root a = root b) : Agree a b := by
  rcases exists_agree hapart ha hb h with ⟨top, htop, hagree⟩ | ⟨top, htop, hagree⟩
  · rcases htop.eq_or_hashed with rfl | hjoined
    · exact hagree
    · obtain ⟨d, hd⟩ := List.exists_mem_of_ne_nil a ha
      obtain ⟨s, hs, he⟩ := hjoined d (hagree.subset hd)
      exact absurd he (hlow d (List.mem_append_left _ hd) s (List.mem_append_right _ hs))
  · rcases htop.eq_or_hashed with rfl | hjoined
    · exact hagree
    · obtain ⟨d, hd⟩ := List.exists_mem_of_ne_nil b hb
      obtain ⟨s, hs, he⟩ := hjoined d (hagree.symm.subset hd)
      exact absurd he (hlow d (List.mem_append_right _ hd) s (List.mem_append_left _ hs))

/-- **A root settles its list among those of its length**, as long as the hash tells apart what it is
given. -/
theorem eq_of_root_eq (hapart : TellsApart (strings a ++ strings b)) (hlen : a.length = b.length)
    (h : root a = root b) : a = b := by
  fun_induction root a generalizing b with
  | case1 => exact (List.eq_nil_of_length_eq_zero hlen.symm).symm
  | case2 only =>
    obtain ⟨only', rfl⟩ := List.length_eq_one_iff.1 hlen.symm
    rw [h, root]
  | case3 left right rest ih =>
    generalize ha : left :: right :: rest = a at *
    have hlow : 2 ≤ a.length := by simp [← ha]
    have hlow' : 2 ≤ b.length := hlen ▸ hlow
    have hlevel : levelAbove a = levelAbove b :=
      ih (tellsApart_levelAbove hapart hlow hlow')
        (by rw [length_levelAbove, length_levelAbove, hlen]) (h.trans (root_levelAbove hlow'))
    refine Agree.eq_of_length ?_ hlen
    exact LevelOver.agree hapart (.refl a) (.refl b) hlow hlow' (hlevel ▸ .refl _)

end Roots

/-! ### Repeating the last digest -/

section Repeated
variable {level : List Digest} (heven : level.length % 2 = 0) (last : Digest)
include heven

/-- A list of odd length is completed by its last digest, so it makes no difference to repeat it. -/
theorem pairs_repeat_last : pairs (level ++ [last, last]) = pairs (level ++ [last]) := by
  rw [pairs_append heven, pairs_append heven]
  rfl

theorem levelAbove_repeat_last :
    levelAbove (level ++ [last, last]) = levelAbove (level ++ [last]) := by
  rw [levelAbove_eq, levelAbove_eq, pairs_repeat_last heven]

/-- The root is the same, and so are the strings that are hashed for it. A list of one digest is
different: its root is that digest, and not its join with itself. -/
theorem root_strings_repeat_last (hne : level ≠ []) :
    root (level ++ [last, last]) = root (level ++ [last]) ∧
      strings (level ++ [last, last]) = strings (level ++ [last]) := by
  have hpos : 0 < level.length := List.length_pos_iff.2 hne
  have hlen : 2 ≤ (level ++ [last]).length := by
    rw [List.length_append, List.length_singleton]
    omega
  have hlen' : 2 ≤ (level ++ [last, last]).length := by simp
  constructor
  · rw [root_levelAbove hlen', root_levelAbove hlen, levelAbove_repeat_last heven]
  · rw [strings_eq hlen', strings_eq hlen, levelAbove_repeat_last heven, pairs_repeat_last heven]

end Repeated

end Merkle

end TestChain
