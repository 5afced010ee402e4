import Predictive.Engine.Cached

/-!
# Where kept engines lie

The file of an engine that is kept under its digest lies in the directory of the scheme, whether the
path of the directory ends in a slash or not (`FileStore.locate_join`). A digest has only hexadecimal
digits, so the name of the file is one step of the path (`FileStore.isPlain_cacheName`), and files of
different digests lie at different places.
-/

set_option autoImplicit false

namespace Predictive

namespace FileStore

variable {s : FileStore} {directory name : String} {here : Steps}

/-! ## Paths in pieces -/

theorem pieces_of_not_mem {cs : List Char} (h : '/' ∉ cs) (piece : List Char) :
    pieces cs piece = [piece.reverse ++ cs] := by
  induction cs generalizing piece with
  | nil => simp [pieces]
  | cons c cs ih =>
      have hc : c ≠ '/' := fun hc => h (hc ▸ List.mem_cons_self)
      rw [pieces, if_neg hc, ih fun hcs => h (List.mem_cons_of_mem _ hcs)]
      simp

theorem pieces_append (cs ds piece : List Char) :
    pieces (cs ++ '/' :: ds) piece = pieces cs piece ++ pieces ds [] := by
  induction cs generalizing piece with
  | nil => simp [pieces]
  | cons c cs ih =>
      rw [List.cons_append, pieces, pieces]
      split
      · rw [ih]
        rfl
      · exact ih _

/-- The steps between the slashes, without the empty ones. -/
def stepsOf (cs : List Char) : Steps := ((pieces cs []).map String.ofList).filter (· != "")

/-- The name is one step of a path, and leads to no directory above or to the same one. -/
structure IsPlain (name : String) : Prop where
  noSlash : '/' ∉ name.toList
  noNull : '\x00' ∉ name.toList
  ne_empty : name ≠ ""
  ne_dot : name ≠ "."
  ne_dots : name ≠ ".."

theorem stepsOf_append (cs : List Char) (plain : IsPlain name) :
    stepsOf (cs ++ '/' :: name.toList) = stepsOf cs ++ [name] := by
  rw [stepsOf, pieces_append, pieces_of_not_mem plain.noSlash, List.map_append, List.filter_append,
    ← stepsOf]
  simp [plain.ne_empty]

theorem stepsOf_slash (cs : List Char) : stepsOf (cs ++ ['/']) = stepsOf cs := by
  rw [stepsOf, pieces_append, List.map_append, List.filter_append, ← stepsOf]
  simp [pieces]

theorem names_eq (path : String) :
    names path = if path.toList.getLast? = some '/' then stepsOf path.toList ++ ["."]
      else stepsOf path.toList := rfl

/-- A path that ends in a plain name does not end in a slash. -/
theorem getLast?_append_name (cs : List Char) (plain : IsPlain name) :
    (cs ++ name.toList).getLast? ≠ some '/' := by
  intro h
  rw [List.getLast?_append] at h
  cases hlast : name.toList.getLast? with
  | none =>
      rw [List.getLast?_eq_none_iff] at hlast
      exact plain.ne_empty (String.toList_injective hlast)
  | some c =>
      rw [hlast, Option.some_or] at h
      obtain rfl := Option.some.inj h
      exact plain.noSlash (List.mem_of_getLast? hlast)

/-! ## Walking to a file of a directory -/

theorem walk_append (start : Steps) (ns ms : List String) :
    s.walk start (ns ++ ms) = (s.walk start ns).bind fun here => s.walk here ms := by
  induction ns generalizing start with
  | nil => rfl
  | cons n ns ih =>
      rw [List.cons_append, walk, walk]
      split
      · split
        · exact ih _
        · split
          · split
            · exact ih _
            · rfl
          · exact ih _
      · rfl

theorem walk_name (plain : IsPlain name) (h : s.hasDirectory here = true) :
    s.walk here [name] = some (here ++ [name]) := by
  rw [walk, if_pos h, if_neg plain.ne_dot, if_neg plain.ne_dots, walk]

/-- The path leads to a directory that is there. -/
structure LeadsTo (s : FileStore) (directory : String) (here : Steps) : Prop where
  isPath : isPath directory = true
  walk : s.walk (origin directory) (names directory) = some here
  hasDirectory : s.hasDirectory here = true

/-- A slash or a dot at the end of the path of a directory leads nowhere. -/
theorem LeadsTo.walk_stepsOf (h : s.LeadsTo directory here) :
    s.walk (origin directory) (stepsOf directory.toList) = some here := by
  have hwalk := h.walk
  rw [names_eq] at hwalk
  split at hwalk
  · rw [walk_append] at hwalk
    obtain ⟨place, hplace, hdot⟩ := Option.bind_eq_some_iff.1 hwalk
    rw [FileStore.walk] at hdot
    split at hdot
    · rw [if_pos rfl, FileStore.walk] at hdot
      rw [hplace, hdot]
    · exact absurd hdot (by simp)
  · exact hwalk

/-! ## Files in a directory -/

theorem head?_ne_slash (plain : IsPlain name) : name.toList.head? ≠ some '/' := by
  intro h
  exact plain.noSlash (List.mem_of_mem_head? h)

/-- Joined paths are put together with one slash, which may be there already. -/
theorem join_cases (directory : String) (plain : IsPlain name) :
    (directory = "" ∧ join directory name = name) ∨
      (∃ front, directory.toList = front ++ ['/'] ∧
        (join directory name).toList = front ++ '/' :: name.toList) ∨
      (directory ≠ "" ∧ (join directory name).toList = directory.toList ++ '/' :: name.toList) := by
  rw [join]
  by_cases hempty : directory = ""
  · exact .inl ⟨hempty, by simp [hempty]⟩
  · rw [if_neg (by simp [head?_ne_slash plain, hempty])]
    -- a slash is put between the two only if the directory does not end with one
    split
    · next hlast =>
        obtain ⟨front, hfront⟩ := List.getLast?_eq_some_iff.1 hlast
        refine .inr (.inl ⟨front, hfront, ?_⟩)
        rw [String.toList_append, hfront, List.append_assoc]
        rfl
    · refine .inr (.inr ⟨hempty, ?_⟩)
      rw [String.toList_append, String.toList_append, List.append_assoc]
      rfl

theorem names_join (directory : String) (plain : IsPlain name) :
    names (join directory name) = stepsOf directory.toList ++ [name] := by
  -- a plain name behind a slash is one more step
  have named : ∀ (cs : List Char) {path : String}, path.toList = cs ++ '/' :: name.toList →
      names path = stepsOf cs ++ [name] := by
    intro cs path hpath
    have hlast : path.toList.getLast? ≠ some '/' := by
      have := getLast?_append_name (cs ++ ['/']) plain
      rwa [List.append_assoc, List.singleton_append, ← hpath] at this
    rw [names_eq, if_neg hlast, hpath, stepsOf_append cs plain]
  rcases join_cases directory plain with ⟨rfl, hjoin⟩ | ⟨front, hfront, hjoin⟩ | ⟨-, hjoin⟩
  · have hlast : name.toList.getLast? ≠ some '/' := getLast?_append_name [] plain
    rw [hjoin, names_eq, if_neg hlast, stepsOf, stepsOf, pieces_of_not_mem plain.noSlash]
    simp [pieces, plain.ne_empty]
  · rw [named front hjoin, hfront, stepsOf_slash]
  · exact named directory.toList hjoin

theorem origin_join (directory : String) (plain : IsPlain name) :
    origin (join directory name) = origin directory := by
  rw [origin, origin]
  rcases join_cases directory plain with ⟨rfl, hjoin⟩ | ⟨front, hfront, hjoin⟩ | ⟨hne, hjoin⟩
  · rw [hjoin, if_neg (head?_ne_slash plain)]
    rfl
  · rw [hjoin, hfront]
    cases front <;> rfl
  · rw [hjoin]
    cases hcs : directory.toList with
    | nil => exact absurd (String.toList_injective hcs) hne
    | cons c cs => rfl

theorem isPath_join (h : isPath directory = true) (plain : IsPlain name) :
    isPath (join directory name) = true := by
  have hdirectory : '\x00' ∉ directory.toList := by simpa [isPath] using h
  have hname := plain.noNull
  have hjoin : '\x00' ∉ (join directory name).toList := by
    rcases join_cases directory plain with ⟨-, hjoin⟩ | ⟨front, hfront, hjoin⟩ | ⟨-, hjoin⟩
    · rw [hjoin]
      exact hname
    · rw [hfront] at hdirectory
      rw [hjoin]
      simpa [hname] using hdirectory
    · rw [hjoin]
      simp [hname, hdirectory]
  simpa [isPath] using hjoin

/-- A file with a plain name lies in the directory that it is joined to. -/
theorem locate_join (h : s.LeadsTo directory here) (plain : IsPlain name) :
    s.locate (join directory name) = some (here ++ [name]) := by
  have hwalk : s.walk (origin (join directory name)) (names (join directory name)) =
      some (here ++ [name]) := by
    rw [origin_join directory plain, names_join directory plain, walk_append, h.walk_stepsOf]
    exact walk_name plain h.hasDirectory
  rw [locate]
  split
  · next hnames =>
      rw [names_join directory plain] at hnames
      exact absurd hnames (by simp)
  · rw [if_pos (isPath_join h.isPath plain)]
    exact hwalk

/-! ## Names of kept engines -/

/-- The name of the file of an engine with a digest. -/
def cacheName (digest : String) : String := ".ll1_cache_" ++ digest ++ ".tmp"

theorem cacheName_injective {x y : String} (h : cacheName x = cacheName y) : x = y := by
  have hchars := congrArg String.toList h
  simp only [cacheName, String.toList_append, List.append_assoc] at hchars
  exact String.toList_injective (List.append_cancel_right (List.append_cancel_left hchars))

theorem isPlain_cacheName {x : String} (h : ∀ c ∈ x.toList, c ≠ '/' ∧ c ≠ '\x00') :
    IsPlain (cacheName x) := by
  have hchars : (cacheName x).toList = ".ll1_cache_".toList ++ x.toList ++ ".tmp".toList := by
    rw [cacheName, String.toList_append, String.toList_append]
  -- the name is longer than the empty one, a dot and two dots
  have hlength : 2 < (cacheName x).toList.length := by
    rw [hchars, List.length_append, List.length_append]
    have : ".ll1_cache_".toList.length = 11 := by decide
    omega
  have hshort : ∀ y : String, y.toList.length ≤ 2 → cacheName x ≠ y := by
    rintro y hy rfl
    omega
  have hnone : ∀ c, (c = '/' ∨ c = '\x00') → c ∉ (cacheName x).toList := by
    intro c hc hmem
    rw [hchars, List.mem_append, List.mem_append] at hmem
    rcases hmem with (hmem | hmem) | hmem
    · revert hmem
      rcases hc with rfl | rfl <;> decide
    · rcases hc with rfl | rfl
      · exact (h _ hmem).1 rfl
      · exact (h _ hmem).2 rfl
    · revert hmem
      rcases hc with rfl | rfl <;> decide
  exact ⟨hnone _ (.inl rfl), hnone _ (.inr rfl), hshort _ (by decide), hshort _ (by decide),
    hshort _ (by decide)⟩

end FileStore

/-! ## Digests -/

namespace Digest

theorem mem_hexByte {b : UInt8} {c : Char} (h : c ∈ hexByte b) :
    ∃ n, n < 16 ∧ c = Nat.digitChar n := by
  have hb : b.toNat < 256 := b.toNat_lt
  rw [hexByte] at h
  rcases List.mem_cons.1 h with rfl | h
  · exact ⟨b.toNat / 16, by omega, rfl⟩
  · obtain rfl := List.mem_singleton.1 h
    exact ⟨b.toNat % 16, by omega, rfl⟩

/-- A digest has only hexadecimal digits, so it holds neither a slash nor the null character. -/
theorem ne_of_mem_md5 {text : String} {c : Char} (h : c ∈ (md5 text).toList) :
    c ≠ '/' ∧ c ≠ '\x00' := by
  have hdigit : ∀ n, n < 16 → Nat.digitChar n ≠ '/' ∧ Nat.digitChar n ≠ '\x00' := by
    decide
  rw [md5, State.hex, String.toList_ofList] at h
  obtain ⟨w, -, hw⟩ := List.mem_flatMap.1 h
  obtain ⟨b, -, hb⟩ := List.mem_flatMap.1 hw
  obtain ⟨n, hn, rfl⟩ := mem_hexByte hb
  exact hdigit n hn

end Digest

end Predictive
