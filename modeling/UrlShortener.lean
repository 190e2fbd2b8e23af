import UrlShortener.MakeUrl.Concurrent
import UrlShortener.MakeUrl.Frame
import UrlShortener.MakeUrl.Runs
import UrlShortener.Http
import UrlShortener.MimeType
import UrlShortener.AppConfig
import UrlShortener.FrontendHandler
import UrlShortener.UrlRedirectHandler
import UrlShortener.DdosProtection
import UrlShortener.WebServer
import UrlShortener.RoundTrip
import UrlShortener.Charging
import UrlShortener.RateLimit
import UrlShortener.StaticPath
import UrlShortener.StaticHandler
import UrlShortener.StaticCache
import UrlShortener.Json
import UrlShortener.MakeUrl.Handler
import UrlShortener.MakeUrl.CaptchaGate
import UrlShortener.MakeUrl.Lifetime
import UrlShortener.MakeUrl.Outcome
import UrlShortener.Logic.DigitStream
import UrlShortener.SlugDigits
import UrlShortener.SlugBlocks
import UrlShortener.MakeUrl.Input
import UrlShortener.MakeUrl.Tries
import UrlShortener.RedirectLifetime
import UrlShortener.StaticFlow
import UrlShortener.StaticLifetime
import UrlShortener.ServerLifecycle
import UrlShortener.AppConfig.Load
import UrlShortener.AppConfig.Slugs
import UrlShortener.AccessCounts
import UrlShortener.Independence
import UrlShortener.RequestPath
import UrlShortener.StaticDocRoot
import UrlShortener.Logic.Numerals
import UrlShortener.ShortenedUrl
import UrlShortener.AppConfig.Csv
import UrlShortener.AppConfig.HashKey
import UrlShortener.AppConfig.Numbers
import UrlShortener.Logic.FormCoding
import UrlShortener.MakeUrl.CaptchaQuery
import UrlShortener.Server.Model
import UrlShortener.Server.TurnedAway
import UrlShortener.MakeUrl.DbWork
import UrlShortener.MakeUrl.Progress
import UrlShortener.Server.Provenance
import UrlShortener.RateEpochs
import UrlShortener.Server.Entries
import UrlShortener.Server.ReadBack
import UrlShortener.HighwayHash.Pointers
import UrlShortener.HighwayHash.Portable
import UrlShortener.Logic.Absorb
import UrlShortener.HighwayHash.Cat
import UrlShortener.HighwayHash.Mixing
import UrlShortener.HighwayHash.Reduction
import UrlShortener.HighwayHash.SlugHash
import UrlShortener.StaticProgress
import UrlShortener.HighwayHash.VectorLanes
import UrlShortener.HighwayHash.Sse41
import UrlShortener.HighwayHash.Avx2
import UrlShortener.HighwayHash.TargetSlugs
