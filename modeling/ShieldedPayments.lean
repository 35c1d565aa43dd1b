import ShieldedPayments.Keys.Description
import ShieldedPayments.Proofs.Argument.RingSound
import ShieldedPayments.Proofs.Argument.SerialExact
import ShieldedPayments.Proofs.Argument.Tampering
import ShieldedPayments.Proofs.Coin.Advertised
import ShieldedPayments.Proofs.Coin.FirstHit
import ShieldedPayments.Proofs.Coin.HashUses
import ShieldedPayments.Proofs.Coin.LengthPrefix
import ShieldedPayments.Proofs.Coin.ReadBack
import ShieldedPayments.Proofs.Coin.RevealedTwice
import ShieldedPayments.Proofs.Coin.SealedRoundTrip
import ShieldedPayments.Proofs.Coin.TokenKept
import ShieldedPayments.Proofs.Encryption.Accepted
import ShieldedPayments.Proofs.Payment.AccountValid
import ShieldedPayments.Proofs.Payment.BalanceTests
import ShieldedPayments.Proofs.Payment.CoinCounts
import ShieldedPayments.Proofs.Payment.HiddenInputs
import ShieldedPayments.Proofs.Payment.HiddenOutputs
import ShieldedPayments.Proofs.Payment.Ownership
import ShieldedPayments.Proofs.Payment.WithinRange
import ShieldedPayments.Proofs.Session
import ShieldedPayments.Shards.Config
