import Mathlib.Data.List.Basic

/-!
# The C string routines the M3 client leans on

`next_action_for_application_server` splits an AF-unique certificate id
`<provisioningSessionId>:<certificateId>` with `strtok_r(id, ":", &cert_id)`
and joins the two halves again with `ogs_msprintf("certificates/%s:%s", ...)`.
This module gives glibc's `strtok_r` on a fresh string, through its two scans
`strspn` and `strcspn`, and the `%s` conversion of a pointer that may be NULL.

**The law** (`strtokR_split`): on `p ++ ":" ++ c` with `p` non-empty and free of
`':'`, the split answers `p` as the token and leaves `c` behind, whatever `c`
holds (it may be empty, and it may contain further colons: only the first
delimiter ends the token).

The round trip holds for exactly these ids (`afUniqueRejoin_eq_self_iff`): a
leading `':'` is skipped, an id with no `':'` is returned whole with an empty
remainder, and an id of colons alone has a NULL token, printed `(null)`; each of
them comes back changed.

## What this does NOT cover

Strings are lists of characters; the NUL terminator is the end of the list, and
`strtok_r` writing a NUL into the duplicated buffer is its returning the two
halves.
-/

namespace Msaf

/-! ## The scans -/

/-- `strspn(s, accept)`: the length of the longest prefix of `s` drawn from `accept`. -/
def strspn : List Char → List Char → Nat
  | [], _ => 0
  | c :: s, accept => if c ∈ accept then strspn s accept + 1 else 0

/-- `strcspn(s, reject)`: the length of the longest prefix of `s` with nothing from `reject`. -/
def strcspn : List Char → List Char → Nat
  | [], _ => 0
  | c :: s, reject => if c ∈ reject then 0 else strcspn s reject + 1

/-- glibc's `strtok_r(s, delim, &save)` on a fresh string: the token (`none` for NULL) and
the text `save` is left pointing at. Leading delimiters are skipped; the token ends at the
next delimiter, which is consumed, or at the end of the string. -/
def strtokR (s delim : List Char) : Option (List Char) × List Char :=
  match s.drop (strspn s delim) with
  | [] => (none, [])
  | t =>
    match t.drop (strcspn t delim) with
    | [] => (some t, [])
    | _ :: rest => (some (t.take (strcspn t delim)), rest)

/-- What glibc's `printf("%s", p)` writes for a pointer that may be NULL. -/
def cStr : Option String → String
  | some s => s
  | none => "(null)"

@[simp] theorem cStr_some (s : String) : cStr (some s) = s := rfl

/-- The prefix `strspn` counts is drawn from `accept`, and what follows it, if anything, starts
outside `accept`. -/
theorem strspn_spec (accept : List Char) : ∀ s : List Char,
    (∀ c ∈ s.take (strspn s accept), c ∈ accept) ∧
      ∀ d rest, s.drop (strspn s accept) = d :: rest → d ∉ accept
  | [] => by simp [strspn]
  | c :: s => by
    by_cases hc : c ∈ accept
    · obtain ⟨h₁, h₂⟩ := strspn_spec accept s
      simp only [strspn, if_pos hc, List.take_succ_cons, List.drop_succ_cons]
      refine ⟨fun x hx => ?_, h₂⟩
      rcases List.mem_cons.mp hx with rfl | hx
      exacts [hc, h₁ x hx]
    · simp [strspn, hc]

/-- The prefix `strcspn` counts has nothing from `reject`, and what follows it, if anything,
starts with a rejected character. -/
theorem strcspn_spec (reject : List Char) : ∀ s : List Char,
    (∀ c ∈ s.take (strcspn s reject), c ∉ reject) ∧
      ∀ d rest, s.drop (strcspn s reject) = d :: rest → d ∈ reject
  | [] => by simp [strcspn]
  | c :: s => by
    by_cases hc : c ∈ reject
    · simp [strcspn, hc]
    · obtain ⟨h₁, h₂⟩ := strcspn_spec reject s
      simp only [strcspn, if_neg hc, List.take_succ_cons, List.drop_succ_cons]
      refine ⟨fun x hx => ?_, h₂⟩
      rcases List.mem_cons.mp hx with rfl | hx
      exacts [hc, h₁ x hx]

/-! ## The split of an AF-unique id -/

/-- An AF-unique certificate id, `<provisioningSessionId>:<certificateId>`, with a non-empty
session id free of `':'`. -/
def IsAfUniqueId (id : String) : Prop :=
  ∃ p c : String, p ≠ "" ∧ ':' ∉ p.data ∧ id = p ++ ":" ++ c

/-- The scan stops at the first delimiter after a delimiter-free prefix. -/
theorem strcspn_append_cons {p s delim : List Char} {d : Char} (hp : ∀ c ∈ p, c ∉ delim)
    (hd : d ∈ delim) : strcspn (p ++ d :: s) delim = p.length := by
  induction p with
  | nil => simp [strcspn, hd]
  | cons c p ih =>
    rw [List.cons_append, strcspn, if_neg (hp c (List.mem_cons_self _ _)),
      ih (fun x hx => hp x (List.mem_cons_of_mem _ hx)), List.length_cons]

/-- **The law**: `strtok_r` splits `p:c` into `p` and `c` when `p` is a non-empty,
colon-free provisioning-session id. -/
theorem strtokR_split {p c : List Char} (hne : p ≠ []) (hp : ':' ∉ p) :
    strtokR (p ++ ':' :: c) [':'] = (some p, c) := by
  obtain ⟨x, p', rfl⟩ := List.exists_cons_of_ne_nil hne
  have hall : ∀ y ∈ x :: p', y ∉ [':'] := by
    intro y hy h
    rw [List.mem_singleton] at h
    exact hp (h ▸ hy)
  have hx : strspn (x :: (p' ++ ':' :: c)) [':'] = 0 := by
    simp only [strspn, if_neg (hall x (List.mem_cons_self _ _))]
  simp only [strtokR, List.cons_append, hx, List.drop_zero]
  rw [← List.cons_append, strcspn_append_cons hall (List.mem_singleton_self _)]
  simp

example : strtokR "p::x".data [':'] = (some "p".data, ":x".data) := by decide

/-- An AF-unique id as the certificate upload prints it back: split by `strtok_r` at the first
`':'` after any leading ones, and the halves joined by `"%s:%s"`. -/
def afUniqueRejoin (id : String) : String :=
  cStr ((strtokR id.data [':']).1.map String.mk) ++ ":" ++ String.mk (strtokR id.data [':']).2

/-- Splitting an AF-unique id and joining it again gives the id back. -/
theorem afUniqueRejoin_split {p c : String} (hne : p ≠ "") (hp : ':' ∉ p.data) :
    afUniqueRejoin (p ++ ":" ++ c) = p ++ ":" ++ c := by
  have hne' : p.data ≠ [] := fun h => hne (String.ext h)
  have hdata : (p ++ ":" ++ c).data = p.data ++ ':' :: c.data := by simp
  simp only [afUniqueRejoin, hdata, strtokR_split hne' hp, Option.map_some', cStr_some]

/-- The split and re-join gives an id back exactly when it is AF-unique. Otherwise: an id of
colons alone has a NULL token and comes back as `(null):`; an id with leading colons loses them;
an id with no colon after them gains one at its end. -/
theorem afUniqueRejoin_eq_self_iff (id : String) :
    afUniqueRejoin id = id ↔ IsAfUniqueId id := by
  refine ⟨fun h => ?_, fun ⟨p, c, hne, hp, he⟩ => he ▸ afUniqueRejoin_split hne hp⟩
  obtain ⟨hlead, hhead⟩ := strspn_spec [':'] id.data
  have hd := congrArg String.data h
  have hs := List.take_append_drop (strspn id.data [':']) id.data
  simp only [afUniqueRejoin, strtokR] at hd
  generalize strspn id.data [':'] = k at *
  generalize id.data.drop k = t at *
  split at hd
  · -- colons alone: the token is NULL, printed `(null)`
    have hmem : '(' ∈ id.data := by rw [← hd]; simp [cStr]
    rw [← hs, List.append_nil] at hmem
    exact absurd (hlead _ hmem) (by decide)
  · rename_i hne
    obtain ⟨x, t', rfl⟩ := List.exists_cons_of_ne_nil hne
    have hx : x ∉ [':'] := hhead x t' rfl
    obtain ⟨hcpre, hchead⟩ := strcspn_spec [':'] (x :: t')
    generalize strcspn (x :: t') [':'] = m at *
    split at hd
    · -- no colon after the leading ones: one is appended, and the id did not end in it
      simp only [Option.map_some', cStr_some, String.data_append] at hd
      rw [← hs] at hd
      cases hk : id.data.take k with
      | nil => simpa [hk] using congrArg List.length hd
      | cons z zs =>
        simp only [hk, List.cons_append, List.append_nil, List.cons.injEq] at hd
        exact absurd (hd.1 ▸ hlead z (hk ▸ List.mem_cons_self _ _)) hx
    · -- the token and the rest re-joined: the id is `token:rest`
      rename_i y rest hu
      have hm0 : m ≠ 0 := by
        rintro rfl
        exact hx ((List.cons.inj hu).1 ▸ hchead y rest hu)
      refine ⟨⟨(x :: t').take m⟩, ⟨rest⟩, ?_, fun hc => hcpre ':' hc (List.mem_singleton_self _),
        ?_⟩
      · simp [String.ext_iff, hm0]
      · simp only [Option.map_some', cStr_some, String.data_append] at hd
        exact String.ext (by simpa using hd.symm)

/-- An id with no `':'` comes back with one appended. -/
example : afUniqueRejoin "abc" = "abc:" := by decide

end Msaf
