import LedgerSovereign.AddressFilling
import LedgerSovereign.AddressReview
import LedgerSovereign.AddressTypos
import LedgerSovereign.BufferIsolation
import LedgerSovereign.ChunkedUploads
import LedgerSovereign.DerivationPaths
import LedgerSovereign.FailSafeErrors
import LedgerSovereign.ItemBrowsing
import LedgerSovereign.ParsedLength
import LedgerSovereign.PhaseDistinction
import LedgerSovereign.ReplyDiscipline
import LedgerSovereign.SessionGuarantees
import LedgerSovereign.SignatureKeys
import LedgerSovereign.SignatureUniqueness
