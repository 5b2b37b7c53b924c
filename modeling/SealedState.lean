import SealedState.Settings
import SealedState.Proofs.Acceptance
import SealedState.Proofs.RoundTrip
import SealedState.Proofs.Tampering
import SealedState.Proofs.TenantIsolation
import SealedState.Proofs.TokenGrammar
import SealedState.Proofs.Noninterference
import SealedState.Proofs.Lifetime
import SealedState.Proofs.FreshVectors
import SealedState.Proofs.KeyChecks
import SealedState.Proofs.ConfigurationErrors
import SealedState.Proofs.MacSeparation
import SealedState.Proofs.CookieTheorems
import SealedState.Proofs.CookieTrip
import SealedState.Proofs.JsonRoundTrip
import SealedState.Proofs.CborRoundTrip
import SealedState.Proofs.SettingsTheorems
import SealedState.Proofs.StrictOperations
import SealedState.Proofs.CalendarTheorems
import SealedState.Proofs.ExpiryNotice
import SealedState.Proofs.Base64urlBijection
import SealedState.Proofs.LogSecrecy
import SealedState.Proofs.MalformedReports
import SealedState.Proofs.CipherInverse
import SealedState.Proofs.DerivedKeys
import SealedState.Proofs.CookieSearch
import SealedState.Proofs.SettingsText
import SealedState.Proofs.TokenOutline
import SealedState.Proofs.CookieAttributes
