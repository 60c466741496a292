import Mathlib.Logic.Basic

/-! Authenticated encryption with explicit nonces. A scheme is a pair of keyed,
nonce-based functions in which decryption inverts encryption. A scheme is
canonical when a ciphertext that opens is exactly what encryption makes of
what it opens to, under the same key and nonce: a deterministic AEAD such as
ChaCha20-Poly1305 is, since a ciphertext opens only when its tag is the one
encryption computes for its body. Nothing here says that a ciphertext binds
its key, which such schemes do not guarantee. -/
namespace Aead

/-- An AEAD scheme whose calls fail with errors of `ε`. -/
structure Scheme (Key Nonce Msg Ct ε : Type) where
  encrypt : Key → Nonce → Msg → Except ε Ct
  decrypt : Key → Nonce → Ct → Except ε Msg
  decrypt_encrypt : ∀ {k n m c}, encrypt k n m = .ok c → decrypt k n c = .ok m

variable {Key Nonce Msg Ct ε : Type}

/-- A ciphertext that opens is the encryption of what it opens to. -/
structure Scheme.Canonical (A : Scheme Key Nonce Msg Ct ε) : Prop where
  encrypt_of_decrypt : ∀ {k n c m}, A.decrypt k n c = .ok m → A.encrypt k n m = .ok c

end Aead
